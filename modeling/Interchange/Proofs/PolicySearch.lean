import Interchange.Proofs.RequiredMembers

/-! The search for policies. Each type is settled from what is known of its members, and whatever is settled on the way
stays right when the types that are still being visited are settled later. -/

namespace Interchange

namespace Field

abbrev withPolicies (fields : List Field) (policies : List DefaultPolicy) : List Field :=
  fields.zipWith (fun field policy => { field with policy }) policies

def answered (fields : List Field) : List (TypeId × DefaultPolicy) :=
  (fields.filter fun field => !field.explicitDefault).map fun field => (field.ty, field.policy)

theorem mem_answered {fields : List Field} {part : TypeId} {value : DefaultPolicy} :
    (part, value) ∈ answered fields ↔
      ∃ field ∈ fields, field.explicitDefault = false ∧ field.ty = part ∧ field.policy = value := by
  simp [answered, and_assoc]

theorem all_withPolicies {fields : List Field} {policies : List DefaultPolicy} (length : policies.length = fields.length) :
    (policies.all fun policy => policy == .allowed) = true ↔ ∀ field ∈ withPolicies fields policies, field.policy = .allowed := by
  induction fields generalizing policies with
  | nil => simp [List.length_eq_zero_iff.mp length]
  | cons field rest ih =>
    cases policies with
    | nil => cases length
    | cons policy others => simpa using fun _ => ih (Nat.succ.inj length)

end Field

namespace Shape

theorem required_withFields {shape : Shape} (composite : shape.kind.isComposite = true) (fields : List Field) :
    (shape.withFields fields).required = (Field.answered fields).map Prod.fst := by
  cases shape with
  | record | primary => simp [withFields, required, Field.answered]
  | _ => cases composite

end Shape

namespace Catalog

variable {base current middle final : Catalog} {visiting : List Nat} {ty : TypeId} {entry : Entry} {value : DefaultPolicy}
  {policyOf : PolicyOf}

/-- How the search asks for a type while those in `visiting` are not settled. -/
def Answering (base : Catalog) (visiting : List Nat) (policyOf : PolicyOf) : Prop :=
  ∀ current ty value final, Pending base visiting current → policyOf current ty = some (value, final) →
    Asked base visiting current final [(ty, value)]

structure FieldsAsked (base : Catalog) (visiting : List Nat) (current final : Catalog) (fields : List Field)
    (policies : List DefaultPolicy) : Prop where
  length : policies.length = fields.length
  asked : Asked base visiting current final (Field.answered (Field.withPolicies fields policies))
  explicit : ∀ field ∈ Field.withPolicies fields policies, field.explicitDefault = true → field.policy = .allowed

theorem fieldPolicies_asked {fields : List Field} {policies : List DefaultPolicy} (answering : Answering base visiting policyOf)
    (pending : Pending base visiting current) (found : fieldPolicies policyOf current fields = some (policies, final)) :
    FieldsAsked base visiting current final fields policies := by
  induction fields generalizing current policies with
  | nil =>
    cases found
    exact ⟨rfl, .nothing pending, by simp⟩
  | cons field rest ih =>
    simp only [fieldPolicies, Option.bind_eq_bind] at found
    cases explicit : field.explicitDefault with
    | true =>
      rw [if_pos explicit, Option.bind_some] at found
      obtain ⟨⟨others, last⟩, second, found⟩ := Option.bind_eq_some_iff.mp found
      cases found
      have rests := ih pending second
      refine ⟨congrArg Nat.succ rests.length, ?_, ?_⟩
      · simpa [Field.answered, explicit] using rests.asked
      · simpa using rests.explicit
    | false =>
      rw [if_neg (by simp [explicit])] at found
      obtain ⟨⟨policy, middle⟩, first, found⟩ := Option.bind_eq_some_iff.mp found
      obtain ⟨⟨others, last⟩, second, found⟩ := Option.bind_eq_some_iff.mp found
      cases found
      have own := answering current field.ty policy middle pending first
      have rests := ih own.pending second
      refine ⟨congrArg Nat.succ rests.length, ?_, ?_⟩
      · simpa [Field.answered, explicit] using own.append rests.asked
      · simpa [explicit] using rests.explicit

/-- Either all types have been asked for and allow a default, or one of them does not. -/
theorem allAllowed_asked {types : List TypeId} {free : Bool} (answering : Answering base visiting policyOf)
    (pending : Pending base visiting current) (found : allAllowed policyOf current types = some (free, final)) :
    (free = true ∧ Asked base visiting current final (types.map fun part => (part, .allowed))) ∨
      free = false ∧ ∃ asked part inner, Asked base visiting current final asked ∧ (∀ entry ∈ asked, entry.1 ∈ types) ∧
        (part, inner) ∈ asked ∧ inner ≠ .allowed := by
  induction types generalizing current with
  | nil =>
    cases found
    exact .inl ⟨rfl, .nothing pending⟩
  | cons ty rest ih =>
    simp only [allAllowed, Option.bind_eq_bind, Option.bind_eq_some_iff] at found
    obtain ⟨⟨policy, middle⟩, first, found⟩ := found
    have own := answering current ty policy middle pending first
    simp only at found
    split at found
    next allowed =>
      subst allowed
      rcases ih own.pending found with ⟨free, asked⟩ | ⟨bound, asked, part, inner, rests, inside, member, strict⟩
      · exact .inl ⟨free, own.append asked⟩
      · refine .inr ⟨bound, _, part, inner, own.append rests, ?_, List.mem_append_right _ member, strict⟩
        intro entry member
        rcases List.mem_append.mp member with member | member
        · cases List.mem_singleton.mp member
          exact List.mem_cons_self
        · exact List.mem_cons_of_mem _ (inside entry member)
    next strict =>
      cases found
      refine .inr ⟨rfl, [(ty, policy)], ty, policy, own, ?_, List.mem_singleton_self _, strict⟩
      intro entry member
      cases List.mem_singleton.mp member
      exact List.mem_cons_self

def Opened (base : Catalog) (visiting : List Nat) : Prop :=
  ∀ pair ∈ visiting, ∃ kind, base.kind? (.ofPair pair) = some kind ∧ kind.hasMembers = true

theorem settlePolicy_lookup (catalog : Catalog) (ty : TypeId) (policy : DefaultPolicy) (other : TypeId) :
    Catalog.entry? (catalog.settlePolicy ty policy).2 other = if ty.pair = other.pair then
      (catalog.entry? other).map fun entry => { entry with policy := some policy } else catalog.entry? other := by
  rw [settlePolicy, modifyEntry_lookup]

theorem setFieldPolicies_lookup (catalog : Catalog) (ty : TypeId) (policies : List DefaultPolicy) (other : TypeId) :
    Catalog.entry? (catalog.setFieldPolicies ty policies) other = if ty.pair = other.pair then
      (catalog.entry? other).map fun entry =>
        { entry with shape := entry.shape.withFields (Field.withPolicies entry.shape.fields policies) }
      else catalog.entry? other := by
  rw [setFieldPolicies, modifyShape, modifyEntry_lookup]

theorem Asked.own_lookup {asked : List (TypeId × DefaultPolicy)}
    (members : Asked base (ty.pair :: visiting) current middle asked) : middle.entry? ty = current.entry? ty :=
  members.keeps ty (.inr (members.pending.unknown List.mem_cons_self))

section Visits

variable (pending : Pending base visiting current) (plain : ty.nullable = false) (present : current.entry? ty = some entry)
  (unsettled : entry.policy = none)

include pending present

theorem requires_iff_of_entry {part : TypeId} : base.Requires ty part ↔ part.nullable = false ∧ part ∈ entry.shape.required := by
  rw [← pending.amends.requires_iff]
  simp [Requires, shape?, present]

theorem kind?_of_entry : base.kind? ty = some entry.shape.kind := by
  rw [← pending.amends.kind? ty]
  exact kind?_of_shape (shape?_eq_some_iff.mpr ⟨entry, present, rfl⟩)

include plain unsettled

/-- A type without members is settled on the spot. -/
theorem settleMemberless_asked (opened : Opened base visiting) (memberless : entry.shape.kind.hasMembers = false)
    (fits : value = if entry.shape.kind.isPolymorphic then .disallowed else .allowed) :
    Asked base visiting current (current.settlePolicy ty value).2 [(ty, value)] := by
  have unrecorded : current.policy? ty = none := by simp [policy?, present, unsettled]
  have unmet : ty.pair ∉ visiting := by
    intro met
    obtain ⟨kind, known, members⟩ := opened ty.pair met
    have same : base.kind? (.ofPair ty.pair) = base.kind? ty := congrArg (Option.map Shape.kind) (shape?_of_pair rfl)
    rw [same, kind?_of_entry pending present] at known
    cases known
    rw [memberless] at members
    cases members
  have visit : Visit base visiting current current (current.settlePolicy ty value).2 ty value [] := {
    pending, plain, unmet
    unsettled := unrecorded
    members := .nothing (pending.visit unrecorded)
    required := by simp
    complete := by
      intro part requires
      rw [requires_iff_of_entry pending present, Shape.required_memberless memberless] at requires
      cases requires.2
    bound := by simp
    amends := pending.amends.trans (settlePolicy_amends value)
    recorded := by
      refine ⟨{ entry with policy := some value }, ?_, rfl, fits ▸ .memberless memberless⟩
      rw [settlePolicy_lookup, if_pos rfl, present, Option.map_some]
    others := by
      intro other different
      rw [settlePolicy_lookup, if_neg different.symm] }
  exact visit.asked_after

/-- The fields of a record or a family have been answered for; their policies are recorded, then that of the type. -/
theorem settleFields_asked {policies : List DefaultPolicy} (unmet : ty.pair ∉ visiting)
    (composite : entry.shape.kind.isComposite = true)
    (answers : FieldsAsked base (ty.pair :: visiting) current middle entry.shape.fields policies)
    (bound : ∀ field ∈ Field.withPolicies entry.shape.fields policies, field.policy ≠ .allowed →
      value = .requiresInit ∨ entry.shape.kind = .primary)
    (solves : ∀ answers, (∀ field ∈ Field.withPolicies entry.shape.fields policies, FieldSolved answers field) →
      Solved answers (entry.shape.withFields (Field.withPolicies entry.shape.fields policies)) value) :
    Asked base visiting current ((middle.setFieldPolicies ty policies).settlePolicy ty value).2 [(ty, value)] := by
  obtain ⟨length, members, explicit⟩ := answers
  have kept : middle.entry? ty = some entry := members.own_lookup.trans present
  have required : entry.shape.required = (Field.answered (Field.withPolicies entry.shape.fields policies)).map Prod.fst := by
    have same := congrArg Shape.required (Shape.declaration_policies length)
    rw [Shape.declaration_required, Shape.declaration_required] at same
    exact same.symm.trans (Shape.required_withFields composite _)
  have visit : Visit base visiting current middle ((middle.setFieldPolicies ty policies).settlePolicy ty value).2 ty value
      (Field.answered (Field.withPolicies entry.shape.fields policies)) := {
    pending, plain, unmet, members
    unsettled := by simp [policy?, present, unsettled]
    required := by
      intro part inner member plain
      rw [requires_iff_of_entry pending present, required]
      exact ⟨plain, List.mem_map_of_mem member⟩
    complete := by
      intro part requires
      rw [requires_iff_of_entry pending present, required] at requires
      obtain ⟨⟨_, inner⟩, member, rfl⟩ := List.mem_map.mp requires.2
      exact .inl ⟨inner, member⟩
    bound := by
      intro part inner member strict
      obtain ⟨field, listed, -, -, rfl⟩ := Field.mem_answered.mp member
      rw [kind?_of_entry pending present, Option.some.injEq]
      exact bound field listed strict
    amends := by
      refine members.pending.amends.trans (setFieldPolicies_amends ?_)
      intro shape found
      rw [shape?, kept] at found
      cases found
      exact length
    recorded := by
      refine ⟨⟨entry.shape.withFields (Field.withPolicies entry.shape.fields policies), entry.externalName,
        entry.previousNames, entry.forms, some value⟩, ?_, rfl, solves _ ?_⟩
      · rw [settlePolicy_lookup, if_pos rfl, setFieldPolicies_lookup, if_pos rfl, kept, Option.map_some, Option.map_some]
      · intro field listed
        unfold FieldSolved
        split
        next carried => exact explicit field listed carried
        next needed =>
          apply Answers.known
          apply members.known
          exact Field.mem_answered.mpr ⟨field, listed, by simpa using needed, rfl, rfl⟩
    others := by
      intro other different
      rw [settlePolicy_lookup, if_neg different.symm, setFieldPolicies_lookup, if_neg different.symm] }
  exact visit.asked_after

/-- Elements of a tuple have been answered for: all of them, or enough to know that it has no default. -/
theorem settleTuple_asked {elements : List TupleElement} {free : Bool} (unmet : ty.pair ∉ visiting)
    (tuple : entry.shape = .tuple elements) (answering : Answering base (ty.pair :: visiting) policyOf)
    (found : allAllowed policyOf current (elements.map TupleElement.ty) = some (free, middle)) :
    Asked base visiting current (middle.settlePolicy ty (if free then .allowed else .requiresInit)).2
      [(ty, if free then .allowed else .requiresInit)] := by
  have unrecorded : current.policy? ty = none := by simp [policy?, present, unsettled]
  have requires_iff {part : TypeId} : base.Requires ty part ↔ part.nullable = false ∧ part ∈ elements.map TupleElement.ty := by
    rw [requires_iff_of_entry pending present, tuple, Shape.required]
  have visit {asked : List (TypeId × DefaultPolicy)} {value : DefaultPolicy}
      (members : Asked base (ty.pair :: visiting) current middle asked)
      (inside : ∀ entry ∈ asked, entry.1 ∈ elements.map TupleElement.ty)
      (complete : ∀ part ∈ elements.map TupleElement.ty, (∃ inner, (part, inner) ∈ asked) ∨ value = .requiresInit)
      (bound : ∀ part inner, (part, inner) ∈ asked → inner ≠ .allowed → value = .requiresInit)
      (solved : Solved (Answers base (ty.pair :: visiting) middle ty) (.tuple elements) value) :
      Visit base visiting current middle (middle.settlePolicy ty value).2 ty value asked := {
    pending, plain, unmet, members
    unsettled := unrecorded
    required := fun part inner member plain => requires_iff.mpr ⟨plain, inside _ member⟩
    complete := fun part requires => complete part (requires_iff.mp requires).2
    bound := fun part inner member strict => .inl (bound part inner member strict)
    amends := members.pending.amends.trans (settlePolicy_amends value)
    recorded := by
      refine ⟨{ entry with policy := some value }, ?_, rfl, tuple ▸ solved⟩
      rw [settlePolicy_lookup, if_pos rfl, members.own_lookup, present, Option.map_some]
    others := by
      intro other different
      rw [settlePolicy_lookup, if_neg different.symm] }
  rcases allAllowed_asked answering (pending.visit unrecorded) found with
    ⟨rfl, members⟩ | ⟨rfl, asked, part, inner, members, inside, member, strict⟩
  · refine (visit members ?_ ?_ ?_ (.free ?_)).asked_after
    · intro entry listed
      obtain ⟨part, member, rfl⟩ := List.mem_map.mp listed
      exact member
    · intro part member
      exact .inl ⟨.allowed, List.mem_map_of_mem member⟩
    · intro part inner listed strict
      obtain ⟨_, -, same⟩ := List.mem_map.mp listed
      cases same
      exact absurd rfl strict
    · intro element member
      exact .known (members.known _ _ (List.mem_map_of_mem (List.mem_map_of_mem member)))
  · obtain ⟨element, present, rfl⟩ := List.mem_map.mp (inside _ member)
    refine (visit members inside (fun _ _ => .inr rfl) (fun _ _ _ _ => rfl) ?_).asked_after
    exact .bound present strict (.known (members.known _ _ member))

end Visits

/-- The search answers for every type, and everything that it settles on the way is solved. -/
theorem policyWithin_asked {depth : Nat} (opened : Opened base visiting) :
    Answering base visiting (policyWithin depth visiting) := by
  induction depth generalizing visiting with
  | zero => exact fun _ _ _ _ _ found => nomatch found
  | succ depth ih =>
    intro current ty value final pending found
    simp only [policyWithin] at found
    split at found
    next nullable =>
      cases found
      exact .ofKnown pending (.absent nullable)
    next notNullable =>
      have plain : ty.nullable = false := by simpa using notNullable
      obtain ⟨entry, present, found⟩ := Option.bind_eq_some_iff.mp found
      split at found
      next known settled =>
        cases found
        exact .ofKnown pending (.settled plain (by simp [policy?, present, settled]))
      next unsettled =>
        -- A type that is met again is answered for without being settled; otherwise one more type is visited.
        have met (contained : visiting.contains ty.pair = true) : Asked base visiting current current [(ty, .requiresInit)] :=
          .ofKnown pending (.visited plain (by simpa using contained))
        have deeper (members : entry.shape.kind.hasMembers = true) :
            Answering base (ty.pair :: visiting) (policyWithin depth (ty.pair :: visiting)) := by
          apply ih
          intro pair member
          rcases List.mem_cons.mp member with rfl | member
          · exact ⟨entry.shape.kind, kind?_of_entry pending present, members⟩
          · exact opened pair member
        have started : Pending base (ty.pair :: visiting) current := pending.visit (by simp [policy?, present, unsettled])
        cases shape : entry.shape with
        | record name isValue fields =>
          simp only [shape] at found
          split at found
          next contained =>
            cases found
            exact met contained
          next unmet =>
            obtain ⟨⟨policies, middle⟩, answered, found⟩ := Option.bind_eq_some_iff.mp found
            cases found
            have answers := fieldPolicies_asked (deeper (by rw [shape]; rfl)) started answered
            rw [if_congr (Field.all_withPolicies answers.length) rfl rfl]
            apply settleFields_asked pending plain present unsettled (by simpa using unmet)
            all_goals rw [shape]
            · rfl
            · exact answers
            · intro field listed strict
              exact .inl (if_neg fun all => strict (all field listed))
            · exact fun answers solved => .record solved
        | primary name fields secondaries abstractions =>
          simp only [shape] at found
          split at found
          next contained =>
            cases found
            exact met contained
          next unmet =>
            obtain ⟨⟨policies, middle⟩, answered, found⟩ := Option.bind_eq_some_iff.mp found
            cases found
            have answers := fieldPolicies_asked (deeper (by rw [shape]; rfl)) started answered
            apply settleFields_asked pending plain present unsettled (by simpa using unmet)
            all_goals rw [shape]
            · rfl
            · exact answers
            · exact fun _ _ _ => .inr rfl
            · exact fun answers solved => .primary solved
        | tuple elements =>
          simp only [shape] at found
          split at found
          next contained =>
            cases found
            exact met contained
          next unmet =>
            obtain ⟨⟨free, middle⟩, answered, found⟩ := Option.bind_eq_some_iff.mp found
            cases found
            have inner := deeper (by rw [shape]; rfl)
            exact settleTuple_asked pending plain present unsettled (by simpa using unmet) shape inner answered
        | _ =>
          rw [shape] at found
          cases found
          exact settleMemberless_asked pending plain present unsettled opened (by rw [shape]; rfl) (by rw [shape]; rfl)

theorem withPolicies_pending (blank : ∀ ty, base.policy? ty = none) (policies : base.withPolicies? = some final) :
    Pending base [] final ∧ ∀ ty, base.contains ty = true → final.policy? ty ≠ none := by
  have initial : Pending base [] base := by
    refine ⟨.refl base, by simp, ?_, ?_⟩
    · intro ty plain allowed
      rw [blank ty] at allowed
      cases allowed
    · intro ty entry policy plain present settled
      have unknown := blank ty
      simp [policy?, present, settled] at unknown
  have folded : Pending base [] final ∧ ∀ ty ∈ base.types.reverse, final.policy? ty ≠ none := by
    refine foldlM_holds (fun done current => Pending base [] current ∧ ∀ ty ∈ done, current.policy? ty ≠ none)
      ⟨initial, by simp⟩ ?_ policies
    rintro done current ty next member ⟨pending, settled⟩ stepped
    obtain ⟨⟨value, after⟩, found, rfl⟩ := Option.map_eq_some_iff.mp stepped
    have asked := policyWithin_asked (by simp [Opened]) current ty value after pending found
    refine ⟨asked.pending, ?_⟩
    intro other listed
    rcases List.mem_cons.mp listed with rfl | earlier
    · obtain ⟨pair, -, rfl⟩ := List.mem_map.mp member
      cases asked.known _ _ (List.mem_singleton_self _) with
      | absent nullable => cases nullable
      | settled _ recorded => simp [recorded]
      | visited _ met => cases met
    · obtain ⟨known, recorded⟩ := Option.ne_none_iff_exists'.mp (settled other earlier)
      simp [asked.keeps.policy? recorded]
  refine ⟨folded.1, ?_⟩
  intro ty inside
  have listed : TypeId.ofPair ty.pair ∈ base.types := List.mem_map_of_mem (List.mem_range.mpr (contains_iff.mp inside))
  rw [← policy?_of_pair (TypeId.ofPair_pair ty.pair)]
  exact folded.2 _ (List.mem_reverse.mpr listed)

end Catalog
end Interchange
