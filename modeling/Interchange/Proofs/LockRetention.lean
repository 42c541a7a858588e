import Interchange.Proofs.LockEdits
import Mathlib.Data.Fintype.Card

/-! What locking keeps. Declarations stay as they are while lists of implementations, forms
and policies are filled in. Implementations and policies are found for every sound table. -/

namespace Interchange

def Field.declaration (field : Field) : Field :=
  { field with policy := .allowed }

/-- A shape as it was declared: without the policies of its fields and the families of an abstraction. -/
def Shape.declaration : Shape → Shape
  | record name value fields => .record name value (fields.map Field.declaration)
  | primary name fields secondaries abstractions =>
    .primary name (fields.map Field.declaration) secondaries abstractions
  | abstraction name generalizations _ => .abstraction name generalizations []
  | shape => shape

theorem Shape.declaration_fields (shape : Shape) : shape.declaration.fields = shape.fields.map Field.declaration := by
  cases shape <;> rfl

theorem Shape.declaration_addAllowed (shape : Shape) (ty : TypeId) : (shape.addAllowed ty).declaration = shape.declaration := by
  cases shape <;> rfl

theorem Shape.fields_length_of_declaration {before after : Shape} (same : after.declaration = before.declaration) :
    after.fields.length = before.fields.length := by
  have counted (shape : Shape) : shape.declaration.fields.length = shape.fields.length := by
    rw [declaration_fields, List.length_map]
  rw [← counted, same, counted]

private theorem declaration_zipWith (fields : List Field) (policies : List DefaultPolicy)
    (length : policies.length = fields.length) :
    (fields.zipWith (fun field policy => { field with policy }) policies).map Field.declaration =
      fields.map Field.declaration := by
  induction fields generalizing policies with
  | nil => simp
  | cons field rest ih =>
    cases policies with
    | nil => cases length
    | cons policy others =>
      rw [List.zipWith_cons_cons, List.map_cons, List.map_cons, ih others (Nat.succ.inj length)]
      rfl

/-- New policies for all fields leave the declaration as it was. -/
theorem Shape.declaration_policies {shape : Shape} {policies : List DefaultPolicy}
    (length : policies.length = shape.fields.length) :
    (shape.withFields (shape.fields.zipWith (fun field policy => { field with policy }) policies)).declaration =
      shape.declaration := by
  cases shape with
  | record name value fields => exact congrArg (Shape.record name value) (declaration_zipWith fields policies length)
  | primary name fields secondaries abstractions =>
    exact congrArg (Shape.primary name · secondaries abstractions) (declaration_zipWith fields policies length)
  | _ => rfl

structure Entry.Retains (before after : Entry) : Prop where
  declaration : after.shape.declaration = before.shape.declaration
  externalName : after.externalName = before.externalName
  previousNames : after.previousNames = before.previousNames

namespace Entry.Retains

variable {before middle after : Entry}

theorem refl (entry : Entry) : entry.Retains entry :=
  ⟨rfl, rfl, rfl⟩

theorem trans (first : before.Retains middle) (second : middle.Retains after) : before.Retains after :=
  ⟨second.declaration.trans first.declaration, second.externalName.trans first.externalName,
    second.previousNames.trans first.previousNames⟩

theorem fields (same : before.Retains after) :
    after.shape.fields.map Field.declaration = before.shape.fields.map Field.declaration := by
  rw [← Shape.declaration_fields, same.declaration, Shape.declaration_fields]

end Entry.Retains

namespace Catalog

/-- All that was declared is still there, at the same pairs. -/
structure Retains (before after : Catalog) : Prop where
  strings : after.strings = before.strings
  entries : ∀ ty entry, before.entry? ty = some entry → ∃ later, after.entry? ty = some later ∧ entry.Retains later

structure Amends (before after : Catalog) : Prop extends Retains before after where
  size : after.size = before.size
  oblivious : ∀ ty, after.obliviousPair? ty = before.obliviousPair? ty
  regular : ∀ ty, after.regularPair? ty = before.regularPair? ty

variable {catalog before middle after start : Catalog} {ty : TypeId}

theorem Retains.refl (catalog : Catalog) : catalog.Retains catalog :=
  ⟨rfl, fun _ entry present => ⟨entry, present, .refl entry⟩⟩

theorem Retains.trans (first : before.Retains middle) (second : middle.Retains after) : before.Retains after := by
  refine ⟨second.strings.trans first.strings, ?_⟩
  intro ty entry present
  obtain ⟨between, kept, same⟩ := first.entries ty entry present
  obtain ⟨later, found, again⟩ := second.entries ty between kept
  exact ⟨later, found, same.trans again⟩

/-- A field is still there, with the policy that was found for it. -/
theorem Retains.field {shape : Shape} {field : Field} (retains : before.Retains after) (found : before.shape? ty = some shape)
    (member : field ∈ shape.fields) :
    ∃ later kept, after.shape? ty = some later ∧ kept ∈ later.fields ∧ kept.declaration = field.declaration := by
  obtain ⟨old, present, rfl⟩ := shape?_eq_some_iff.mp found
  obtain ⟨later, kept, same⟩ := retains.entries ty old present
  obtain ⟨field', listed, equal⟩ := List.mem_map.mp (same.fields ▸ List.mem_map_of_mem member)
  exact ⟨later.shape, field', shape?_eq_some_iff.mpr ⟨later, kept, rfl⟩, listed, equal⟩

theorem push_retains (entry : Entry) : catalog.Retains (catalog.push entry).2 := by
  refine ⟨rfl, ?_⟩
  intro ty old present
  have inside := contains_iff.mp (contains_of_entry present)
  exact ⟨old, by rw [push_lookup, if_neg (by omega), present], .refl old⟩

theorem modifyEntry_retains {change : Entry → Entry} {keeps : ∀ entry, (change entry).shape.identity = entry.shape.identity}
    (retains : ∀ entry, catalog.entry? ty = some entry → entry.Retains (change entry)) :
    catalog.Retains (catalog.modifyEntry ty change keeps) := by
  refine ⟨rfl, ?_⟩
  intro other entry present
  by_cases same : ty.pair = other.pair
  · exact ⟨change entry, by rw [modifyEntry_lookup, if_pos same, present]; rfl, retains entry (lookup_of_pair same ▸ present)⟩
  · exact ⟨entry, by rw [modifyEntry_lookup, if_neg same, present], .refl entry⟩

namespace Amends

theorem refl (catalog : Catalog) : catalog.Amends catalog :=
  ⟨.refl catalog, rfl, fun _ => rfl, fun _ => rfl⟩

theorem trans (first : before.Amends middle) (second : middle.Amends after) : before.Amends after :=
  ⟨first.toRetains.trans second.toRetains, second.size.trans first.size,
    fun ty => (second.oblivious ty).trans (first.oblivious ty), fun ty => (second.regular ty).trans (first.regular ty)⟩

theorem contains (amends : before.Amends after) (inside : before.contains ty = true) : after.contains ty = true := by
  rw [contains_iff] at inside ⊢
  rwa [amends.size]

end Amends

theorem modifyEntry_amends {change : Entry → Entry} {keeps : ∀ entry, (change entry).shape.identity = entry.shape.identity}
    (retains : ∀ entry, catalog.entry? ty = some entry → entry.Retains (change entry))
    (forms : ∀ entry, (change entry).forms = entry.forms) : catalog.Amends (catalog.modifyEntry ty change keeps) := by
  refine ⟨modifyEntry_retains retains, modifyEntry_size ty, ?_, ?_⟩
  · intro other
    exact modifyEntry_bind (fun entry => by rw [forms]) other
  · intro other
    exact modifyEntry_bind (fun entry => by rw [forms]) other

theorem modifyShape_amends {change : Shape → Shape} {keeps : ∀ shape, (change shape).identity = shape.identity}
    (declaration : ∀ shape, catalog.shape? ty = some shape → (change shape).declaration = shape.declaration) :
    catalog.Amends (catalog.modifyShape ty change keeps) := by
  apply modifyEntry_amends
  · intro entry present
    exact ⟨declaration entry.shape (shape?_eq_some_iff.mpr ⟨entry, present, rfl⟩), rfl, rfl⟩
  · exact fun entry => rfl

/-- A fold succeeds if each of its steps does; `holds` says of every table what is true once the listed items are done. -/
theorem foldlM_total {α : Type} {step : Catalog → α → Option Catalog} {items : List α} (holds : List α → Catalog → Prop)
    (initial : holds [] start)
    (each : ∀ done catalog, ∀ item ∈ items, holds done catalog →
      ∃ next, step catalog item = some next ∧ holds (item :: done) next) :
    ∃ final, items.foldlM step start = some final ∧ holds items.reverse final := by
  suffices general : ∀ done start, holds done start → ∃ final, items.foldlM step start = some final ∧
      holds (items.reverse ++ done) final by
    simpa using general [] start initial
  clear initial
  induction items with
  | nil => exact fun done start kept => ⟨start, rfl, kept⟩
  | cons item rest ih =>
    intro done start kept
    obtain ⟨next, stepped, kept⟩ := each done start item (by simp) kept
    obtain ⟨final, folded, last⟩ := ih (fun done catalog other member => each done catalog other (by simp [member])) _ next kept
    refine ⟨final, by simp [List.foldlM_cons, stepped, folded], ?_⟩
    rwa [List.reverse_cons, List.append_assoc]

/-- Registered interfaces have registered interfaces above them, so the search for abstractions never gets lost. -/
theorem climb_isSome (sound : catalog.Sound) (unseen : List Nat) (stack : List TypeId)
    (inside : ∀ ty ∈ stack, catalog.contains ty = true) : (catalog.climb unseen stack).isSome = true := by
  fun_induction climb catalog unseen stack with
  | case1 => rfl
  | case2 unseen ty stack unmet name generalizations allowed found ih =>
    rw [Option.isSome_map]
    apply ih
    intro above member
    rcases List.mem_append.mp member with member | member
    · exact sound.mentioned found (by simp [Shape.mentions, List.mem_reverse.mp member])
    · exact inside above (by simp [member])
  | case3 unseen ty stack unmet shape found different ih => exact ih fun above member => inside above (by simp [member])
  | case4 unseen ty stack unmet missing =>
    obtain ⟨shape, found⟩ := shape_of_contains (inside ty (by simp))
    rw [found] at missing
    cases missing
  | case5 unseen ty stack met known ih => exact ih fun above member => inside above (by simp [member])
  | case6 unseen ty stack met unknown => exact absurd (inside ty (by simp)) unknown

theorem allow_amends (family : TypeId) (abstractions : List Nat) : catalog.Amends (catalog.allow family abstractions) := by
  unfold allow
  induction abstractions generalizing catalog with
  | nil => exact .refl catalog
  | cons pair rest ih =>
    have first : catalog.Amends (catalog.modifyShape (.ofPair pair) fun shape => shape.addAllowed family) :=
      modifyShape_amends fun shape _ => shape.declaration_addAllowed family
    exact first.trans ih

theorem withAllowed_total (sound : catalog.Sound) : ∃ final, catalog.withAllowed? = some final ∧ catalog.Amends final := by
  refine foldlM_total (fun _ => catalog.Amends) (.refl catalog) ?_
  intro _ filled family member amends
  split
  next name fields secondaries abstractions found =>
    have known : (catalog.abstractionsOf? abstractions).isSome = true := by
      apply climb_isSome sound
      intro above member
      exact sound.mentioned found (by simp [Shape.mentions, List.mem_reverse.mp member])
    obtain ⟨pairs, climbed⟩ := Option.isSome_iff_exists.mp known
    rw [climbed]
    exact ⟨_, rfl, amends.trans (allow_amends family pairs)⟩
  next => exact ⟨filled, rfl, amends⟩

theorem settlePolicy_amends (policy : DefaultPolicy) : catalog.Amends (catalog.settlePolicy ty policy).2 :=
  @modifyEntry_amends catalog ty (fun entry => { entry with policy := some policy }) (fun _ => rfl)
    (fun _ _ => ⟨rfl, rfl, rfl⟩) fun _ => rfl

/-- The policies of all fields are recorded, then that of the type itself. -/
theorem setFieldPolicies_amends {policies : List DefaultPolicy} {policy : DefaultPolicy}
    (length : ∀ shape, catalog.shape? ty = some shape → policies.length = shape.fields.length) :
    catalog.Amends ((catalog.setFieldPolicies ty policies).settlePolicy ty policy).2 := by
  have fields : catalog.Amends (catalog.setFieldPolicies ty policies) :=
    modifyShape_amends fun shape found => Shape.declaration_policies (length shape found)
  exact fields.trans (settlePolicy_amends policy)

/-- What a search for policies does with every registered type of a sound table of the given size. -/
def Settling (size : Nat) (policyOf : PolicyOf) : Prop :=
  ∀ catalog ty, catalog.Sound → catalog.size = size → catalog.contains ty = true →
    ∃ policy final, policyOf catalog ty = some (policy, final) ∧ catalog.Amends final ∧ final.Sound

section Policies

variable {size : Nat} {policyOf : PolicyOf}

theorem fieldPolicies_total (settling : Settling size policyOf) (sound : catalog.Sound) (sized : catalog.size = size)
    (fields : List Field) (inside : ∀ field ∈ fields, catalog.contains field.ty = true) :
    ∃ policies final, fieldPolicies policyOf catalog fields = some (policies, final) ∧ policies.length = fields.length ∧
      catalog.Amends final ∧ final.Sound := by
  induction fields generalizing catalog with
  | nil => exact ⟨[], catalog, rfl, rfl, .refl catalog, sound⟩
  | cons field rest ih =>
    have own : ∃ policy middle, (if field.explicitDefault then some (.allowed, catalog) else policyOf catalog field.ty) =
        some (policy, middle) ∧ catalog.Amends middle ∧ middle.Sound := by
      split
      · exact ⟨.allowed, catalog, rfl, .refl catalog, sound⟩
      · exact settling catalog field.ty sound sized (inside field (by simp))
    obtain ⟨policy, middle, first, amends, middleSound⟩ := own
    obtain ⟨policies, final, others, length, more, finalSound⟩ := ih middleSound (amends.size.trans sized)
      fun field member => amends.contains (inside field (by simp [member]))
    refine ⟨policy :: policies, final, ?_, congrArg Nat.succ length, amends.trans more, finalSound⟩
    cases explicit : field.explicitDefault with
    | true =>
      rw [explicit, if_pos rfl] at first
      cases first
      simp [fieldPolicies, explicit, others]
    | false =>
      rw [explicit, if_neg (by decide)] at first
      simp [fieldPolicies, explicit, first, others]

theorem allAllowed_total (settling : Settling size policyOf) (sound : catalog.Sound) (sized : catalog.size = size)
    (types : List TypeId) (inside : ∀ ty ∈ types, catalog.contains ty = true) :
    ∃ free final, allAllowed policyOf catalog types = some (free, final) ∧ catalog.Amends final ∧ final.Sound := by
  induction types generalizing catalog with
  | nil => exact ⟨true, catalog, rfl, .refl catalog, sound⟩
  | cons ty rest ih =>
    obtain ⟨policy, middle, first, amends, middleSound⟩ := settling catalog ty sound sized (inside ty (by simp))
    by_cases free : policy = .allowed
    · obtain ⟨others, final, rests, more, finalSound⟩ := ih middleSound (amends.size.trans sized)
        fun ty member => amends.contains (inside ty (by simp [member]))
      exact ⟨others, final, by simp [allAllowed, first, free, rests], amends.trans more, finalSound⟩
    · exact ⟨false, middle, by simp [allAllowed, first, free], amends, middleSound⟩

end Policies

/-- The types being visited are all different, so there is always depth left for one more. -/
theorem policyWithin_total {depth : Nat} {visiting : List Nat} (distinct : visiting.Nodup)
    (met : ∀ pair ∈ visiting, pair < catalog.size) (deep : catalog.size < depth + visiting.length) :
    Settling catalog.size (policyWithin depth visiting) := by
  induction depth generalizing visiting with
  | zero =>
    have bound : visiting.length ≤ catalog.size := by
      have nested : visiting ⊆ List.range catalog.size := fun pair member => List.mem_range.mpr (met pair member)
      simpa using (distinct.subperm nested).length_le
    omega
  | succ depth ih =>
    intro current ty sound sized inside
    suffices settled : ∃ policy final, policyWithin (depth + 1) visiting current ty = some (policy, final) ∧
        current.Amends final by
      obtain ⟨policy, final, found, amends⟩ := settled
      have edits : Edits (fun _ _ => True) current final := (policyWithin_steps found).edits
      exact ⟨policy, final, found, amends, edits.sound sound⟩
    have deeper (unmet : visiting.contains ty.pair = false) :
        Settling catalog.size (policyWithin depth (ty.pair :: visiting)) := by
      apply ih
      · exact List.nodup_cons.mpr ⟨by simpa using unmet, distinct⟩
      · intro pair member
        rcases List.mem_cons.mp member with rfl | member
        · exact sized ▸ contains_iff.mp inside
        · exact met pair member
      · simp only [List.length_cons]
        omega
    obtain ⟨entry, present⟩ := entry_of_contains inside
    have found : current.shape? ty = some entry.shape := shape?_eq_some_iff.mpr ⟨entry, present, rfl⟩
    -- Fields have been found for the same declaration that they are recorded in.
    have recorded {policies : List DefaultPolicy} {final : Catalog} (policy : DefaultPolicy)
        (length : policies.length = entry.shape.fields.length) (amends : current.Amends final) :
        current.Amends ((final.setFieldPolicies ty policies).settlePolicy ty policy).2 := by
      refine amends.trans (setFieldPolicies_amends ?_)
      intro shape finalFound
      obtain ⟨later, kept, same⟩ := amends.entries ty entry present
      obtain ⟨other, again, rfl⟩ := shape?_eq_some_iff.mp finalFound
      cases kept.symm.trans again
      exact length.trans (Shape.fields_length_of_declaration same.declaration).symm
    simp only [policyWithin, present, Option.bind_eq_bind, Option.bind_some]
    split
    · exact ⟨.allowed, current, rfl, .refl current⟩
    · split
      next known _ => exact ⟨known, current, rfl, .refl current⟩
      next =>
        cases shape : entry.shape with
        | any | abstraction | union => exact ⟨.disallowed, _, rfl, settlePolicy_amends .disallowed⟩
        | record name value fields =>
          cases unmet : visiting.contains ty.pair with
          | true => exact ⟨.requiresInit, current, by simp, .refl current⟩
          | false =>
            obtain ⟨policies, final, answered, length, amends, -⟩ := fieldPolicies_total (deeper unmet) sound sized fields
              fun field member => sound.mentioned found
                (by simpa [shape, Shape.mentions, Shape.components] using ⟨field, member, rfl⟩)
            simp only [answered, Bool.false_eq_true, if_false, Option.bind_some]
            exact ⟨_, _, rfl, recorded _ (by rw [shape]; exact length) amends⟩
        | primary name fields secondaries abstractions =>
          cases unmet : visiting.contains ty.pair with
          | true => exact ⟨.requiresInit, current, by simp, .refl current⟩
          | false =>
            obtain ⟨policies, final, answered, length, amends, -⟩ := fieldPolicies_total (deeper unmet) sound sized fields
              fun field member => sound.mentioned found (by simpa [shape, Shape.mentions] using .inl ⟨field, member, rfl⟩)
            simp only [answered, Bool.false_eq_true, if_false, Option.bind_some]
            exact ⟨_, _, rfl, recorded _ (by rw [shape]; exact length) amends⟩
        | tuple elements =>
          cases unmet : visiting.contains ty.pair with
          | true => exact ⟨.requiresInit, current, by simp, .refl current⟩
          | false =>
            obtain ⟨free, final, answered, amends, -⟩ := allAllowed_total (deeper unmet) sound sized
              (elements.map TupleElement.ty) fun part member => sound.mentioned found
                (by simpa [shape, Shape.mentions, Shape.components, Shape.parts] using member)
            simp only [answered, Bool.false_eq_true, if_false, Option.bind_some]
            exact ⟨_, _, rfl, amends.trans (settlePolicy_amends _)⟩
        | _ => exact ⟨.allowed, _, rfl, settlePolicy_amends .allowed⟩

theorem withPolicies_total (sound : catalog.Sound) :
    ∃ final, catalog.withPolicies? = some final ∧ catalog.Amends final ∧ final.Sound := by
  refine foldlM_total (fun _ current => catalog.Amends current ∧ current.Sound) ⟨.refl catalog, sound⟩ ?_
  intro _ current ty member ⟨amends, currentSound⟩
  obtain ⟨pair, inside, rfl⟩ := List.mem_map.mp member
  have known : current.contains (.ofPair pair) = true := amends.contains (contains_iff.mpr (List.mem_range.mp inside))
  obtain ⟨policy, next, found, more, nextSound⟩ :=
    @policyWithin_total current (current.size + 1) [] (by simp) (by simp) (by simp) current _ currentSound rfl known
  exact ⟨next, by simp [found], amends.trans more, nextSound⟩

end Catalog
end Interchange
