import Interchange.System
import Interchange.Proofs.BuilderHistory

/-! Locking changes the table by small edits only: lists of implementations, normal
forms and policies are filled in, and normal forms may be new types. -/

namespace Interchange

namespace Shape

def Remade (part : TypeId → TypeId) (before after : Shape) : Prop :=
  after = before ∨ after.isBuilt = true ∧ (∀ ty ∈ after.parts, ∃ old ∈ before.parts, ty = part old) ∧
    ∀ symbol ∈ after.symbols, symbol ∈ before.symbols

theorem erase_remade (part : TypeId → TypeId) (shape : Shape) : Remade part shape (shape.erase part) := by
  cases shape with
  | tuple elements =>
    refine .inr ⟨rfl, ?_, by simp [erase, symbols, TupleElement.positional]⟩
    simp only [erase, parts, List.map_map, List.mem_map]
    rintro ty ⟨element, member, rfl⟩
    exact ⟨element.ty, ⟨element, member, rfl⟩, rfl⟩
  | union members =>
    refine .inr ⟨rfl, ?_, by simp [erase, unionOf, symbols, name?, fields]⟩
    simp only [erase, unionOf, parts, List.mem_eraseDups, List.mem_map]
    rintro ty ⟨old, member, rfl⟩
    exact ⟨old, member, rfl⟩
  | array | list | set | dictionary => exact .inr ⟨rfl, by simp [erase, parts], by simp [erase, symbols, name?, fields]⟩
  | _ => exact .inl rfl

theorem regularize_remade (part : TypeId → TypeId) (shape : Shape) : Remade part shape (shape.regularize part) := by
  cases shape with
  | tuple elements =>
    refine .inr ⟨rfl, ?_, ?_⟩
    · simp only [regularize, parts, List.map_map, List.mem_map]
      rintro ty ⟨element, member, rfl⟩
      exact ⟨element.ty, ⟨element, member, rfl⟩, rfl⟩
    · simp [regularize, symbols, List.filterMap_map]
  | union members =>
    refine .inr ⟨rfl, ?_, by simp [regularize, unionOf, symbols, name?, fields]⟩
    simp only [regularize, unionOf, parts, List.mem_eraseDups, List.mem_map]
    rintro ty ⟨old, member, rfl⟩
    exact ⟨old, member, rfl⟩
  | array | list | set | dictionary =>
    exact .inr ⟨rfl, by simp [regularize, parts], by simp [regularize, symbols, name?, fields]⟩
  | _ => exact .inl rfl

theorem anonymous_of_isBuilt {shape : Shape} (built : shape.isBuilt = true) : shape.name? = none := by
  cases shape <;> first | rfl | cases built

theorem parts_named {shape : Shape} {name : Symbol} (named : shape.name? = some name) : shape.parts = [] := by
  cases shape <;> first | rfl | cases named

end Shape

namespace Catalog

variable {catalog start final : Catalog} {fits : Catalog → Shape → Prop} {ty form : TypeId}

/-- A fold keeps what each of its steps keeps; `holds` says of every table what is true once the listed items are done. -/
theorem foldlM_holds {α : Type} {step : Catalog → α → Option Catalog} {items : List α} (holds : List α → Catalog → Prop)
    (initial : holds [] start)
    (each : ∀ done catalog item next, item ∈ items → holds done catalog → step catalog item = some next →
      holds (item :: done) next)
    (folded : items.foldlM step start = some final) : holds items.reverse final := by
  suffices general : ∀ done start, holds done start → items.foldlM step start = some final →
      holds (items.reverse ++ done) final by
    simpa using general [] start initial folded
  clear initial folded
  induction items with
  | nil =>
    intro done start kept folded
    cases folded
    exact kept
  | cons item rest ih =>
    intro done start kept folded
    obtain ⟨next, stepped, folded⟩ := Option.bind_eq_some_iff.mp folded
    rw [List.reverse_cons, List.append_assoc]
    refine ih ?_ _ next (each done start item next (by simp) kept stepped) folded
    intro done catalog other after member
    exact each done catalog other after (by simp [member])

/-- What each step of a fold does is done by the whole of it. -/
theorem foldlM_chain {α : Type} {related : Catalog → Catalog → Prop} {step : Catalog → α → Option Catalog} {items : List α}
    (each : ∀ catalog item next, item ∈ items → Relation.ReflTransGen related start catalog → step catalog item = some next →
      Relation.ReflTransGen related catalog next)
    (folded : items.foldlM step start = some final) : Relation.ReflTransGen related start final := by
  refine foldlM_holds (fun _ => Relation.ReflTransGen related start) .refl ?_ folded
  intro _ catalog item next member earlier stepped
  exact earlier.trans (each catalog item next member earlier stepped)

theorem foldlM_edits {α : Type} {step : Catalog → α → Option Catalog} {items : List α}
    (each : ∀ catalog item next, item ∈ items → Edits fits start catalog → step catalog item = some next →
      Edits fits catalog next)
    (folded : items.foldlM step start = some final) : Edits fits start final :=
  foldlM_chain each folded

theorem allow_edits {families : List Nat} (inside : catalog.contains ty = true) :
    Edits fits catalog (catalog.allow ty families) := by
  unfold allow
  induction families generalizing catalog with
  | nil => exact .refl
  | cons pair rest ih =>
    have first : Edits fits catalog (catalog.modifyShape (.ofPair pair) fun shape => shape.addAllowed ty) := by
      refine modifyShape_edits _ _ _ (fun shape => shape.addAllowed_outline ty) ?_ ?_ ?_
      · intro shape found above member
        cases shape <;> exact .inl member
      · intro shape found part member
        cases shape with
        | abstraction name generalizations allowed =>
          simp only [Shape.addAllowed, Shape.mentions, List.mem_append] at member ⊢
          rcases member with member | member
          · exact .inl (.inl member)
          · rcases Shape.mem_adjoin member with member | rfl
            · exact .inl (.inr member)
            · exact .inr inside
        | _ => exact .inl member
      · intro shape found symbol member
        cases shape <;> exact .inl member
    exact first.trans (ih (first.contains inside))

theorem withAllowed_edits (filled : catalog.withAllowed? = some final) : Edits fits catalog final := by
  refine foldlM_edits ?_ filled
  intro current family next member edits stepped
  obtain ⟨pair, inside, rfl⟩ := List.mem_map.mp member
  have known : catalog.contains (.ofPair pair) = true := contains_iff.mpr (List.mem_range.mp inside)
  split at stepped
  · obtain ⟨families, -, rfl⟩ := Option.map_eq_some_iff.mp stepped
    exact allow_edits (edits.contains known)
  · cases stepped
    exact .refl

theorem oblivious_known (sound : catalog.Sound) (inside : catalog.contains ty = true) :
    catalog.contains (catalog.oblivious ty) = true := by
  have known : catalog.contains ((catalog.obliviousPair? ty).getD ty.nonNull) = true := by
    cases settled : catalog.obliviousPair? ty with
    | none => exact inside
    | some form =>
      obtain ⟨entry, present, settled⟩ := Option.bind_eq_some_iff.mp settled
      exact sound.closed ty entry present form (by simp [Entry.mentions, settled])
  simp only [oblivious]
  split <;> exact known

theorem regular_known (sound : catalog.Sound) (inside : catalog.contains ty = true) :
    catalog.contains ((catalog.regular? ty).getD ty) = true := by
  cases settled : catalog.regular? ty with
  | none => exact inside
  | some form =>
    obtain ⟨pair, joined, rfl⟩ := Option.map_eq_some_iff.mp settled
    have recorded := Option.join_eq_some_iff.mp joined
    obtain ⟨entry, present, recorded⟩ := Option.bind_eq_some_iff.mp recorded
    exact sound.closed ty entry present pair (by simp [Entry.mentions, recorded])

/-- Remaking a type leaves the table as it is or enters one shape. -/
theorem remake_cases (catalog : Catalog) (ty : TypeId) (shape : Shape) :
    (∃ pair, catalog.remake ty shape = (.ofPair pair, catalog)) ∨ catalog.remake ty shape = catalog.push { shape } := by
  unfold remake
  split
  · obtain ⟨pair, same, -⟩ | ⟨-, same⟩ := catalog.intern_cases shape
    · exact .inl ⟨pair, same⟩
    · exact .inr same
  · exact .inl ⟨ty.pair, rfl⟩

theorem remake_shape {part : TypeId → TypeId} {before after : Shape} (found : catalog.shape? ty = some before)
    (remade : Shape.Remade part before after) : (catalog.remake ty after).2.shape? (catalog.remake ty after).1 = some after := by
  unfold remake
  split
  · exact catalog.intern_shape after
  next other =>
    obtain rfl | ⟨built, -⟩ := remade
    · exact found
    · exact absurd built other

/-- A shape that is remade of registered parts is entered, or it is there already. -/
theorem Sound.remake_edits (sound : catalog.Sound) {part : TypeId → TypeId} {before after : Shape}
    (found : catalog.shape? ty = some before) (remade : Shape.Remade part before after)
    (known : ∀ old, catalog.contains old = true → catalog.contains (part old) = true) :
    Edits fits catalog (catalog.remake ty after).2 := by
  unfold remake
  split
  next built =>
    have anonymous := Shape.anonymous_of_isBuilt built
    rcases remade with rfl | ⟨-, parts, symbols⟩
    · obtain ⟨pair, same, -⟩ | ⟨fresh, -⟩ := catalog.intern_cases after
      · rw [same]
      · exact absurd found (fresh anonymous ty)
    · refine intern_edits anonymous ?_ ?_
      · intro other member
        obtain ⟨old, present, rfl⟩ := parts other member
        have mentioned : old ∈ before.mentions := by
          cases named : before.name? with
          | none => rwa [Shape.mentions_anonymous named]
          | some name =>
            rw [Shape.parts_named named] at present
            cases present
        exact known old (sound.mentioned found mentioned)
      · intro symbol member
        obtain ⟨entry, present, rfl⟩ := shape?_eq_some_iff.mp found
        exact sound.spelled ty entry present symbol (by simp [Entry.symbols, symbols symbol member])
  next => exact .refl

theorem setOblivious_edits (inside : catalog.contains form = true) : Edits fits catalog (catalog.setOblivious ty form) := by
  refine .tail (.single (.revise catalog ty _ ?_)) (.revise _ form _ ?_)
  · intro entry present
    refine ⟨rfl, fun above member => .inl member, ?_, fun symbol member => .inl member⟩
    intro part member
    simp only [Entry.mentions, List.mem_append, Option.toList_some, List.mem_singleton] at member ⊢
    rcases member with (member | rfl) | member
    · exact .inl (.inl (.inl member))
    · exact .inr inside
    · exact .inl (.inr member)
  · intro entry present
    refine ⟨rfl, fun above member => .inl member, ?_, fun symbol member => .inl member⟩
    intro part member
    rw [modifyEntry_contains]
    simp only [Entry.mentions, List.mem_append, Option.toList_some, List.mem_singleton] at member ⊢
    rcases member with (member | member) | member
    · exact .inl (.inl (.inl member))
    · cases settled : entry.forms.oblivious with
      | none =>
        rw [settled] at member
        cases member
        exact .inr inside
      | some other =>
        rw [settled] at member
        cases member
        exact .inl (.inl (.inr (by simp)))
    · exact .inl (.inr member)

theorem setRegular_edits {form : Option TypeId} (inside : ∀ other ∈ form, catalog.contains other = true) :
    Edits fits catalog (catalog.setRegular ty form) := by
  refine .single (.revise catalog ty _ ?_)
  intro entry present
  refine ⟨rfl, fun above member => .inl member, ?_, fun symbol member => .inl member⟩
  intro part member
  simp only [Entry.mentions, List.mem_append, Option.join_some, Option.mem_toList] at member ⊢
  rcases member with (member | member) | member
  · exact .inl (.inl (.inl member))
  · exact .inl (.inl (.inr member))
  · exact .inr (inside part member)

/-- Work on the parts of a type leaves the type's own shape as it was. -/
theorem shape_after_parts {entry : Entry} {step : Catalog → TypeId → Option Catalog} (present : catalog.entry? ty = some entry)
    (folded : entry.shape.parts.foldlM step catalog = some final)
    (outline : ∀ {ty shape}, catalog.shape? ty = some shape → ∃ later, final.shape? ty = some later ∧ later.outline = shape.outline) :
    final.shape? ty = some entry.shape := by
  have found : catalog.shape? ty = some entry.shape := shape?_eq_some_iff.mpr ⟨entry, present, rfl⟩
  cases named : entry.shape.name? with
  | none =>
    obtain ⟨later, kept, same⟩ := outline found
    rw [kept, Shape.eq_of_outline_anonymous same named]
  | some name =>
    rw [Shape.parts_named named] at folded
    cases folded
    exact found

theorem settleOblivious_edits {depth : Nat} (sound : catalog.Sound) (settled : settleOblivious depth catalog ty = some final) :
    Edits fits catalog final := by
  induction depth generalizing catalog ty final with
  | zero => cases settled
  | succ depth ih =>
    simp only [settleOblivious, Option.bind_eq_bind, Option.bind_eq_some_iff] at settled
    obtain ⟨entry, present, settled⟩ := settled
    split at settled
    · cases settled
      exact .refl
    · obtain ⟨middle, folded, settled⟩ := Option.bind_eq_some_iff.mp settled
      cases settled
      have edits : Edits fits catalog middle :=
        foldlM_edits (fun current part next _ earlier stepped => ih (earlier.sound sound) stepped) folded
      have settledSound := edits.sound sound
      have found := shape_after_parts present folded edits.outline
      have remade := Shape.erase_remade middle.oblivious entry.shape
      have entered : Edits fits middle (middle.remake ty (entry.shape.erase middle.oblivious)).2 :=
        settledSound.remake_edits found remade fun old inside => oblivious_known settledSound inside
      exact edits.trans (entered.trans (setOblivious_edits (contains_of_shape (remake_shape found remade))))

theorem settleRegular_edits {depth : Nat} (sound : catalog.Sound) (settled : settleRegular depth catalog ty = some final) :
    Edits fits catalog final := by
  induction depth generalizing catalog ty final with
  | zero => cases settled
  | succ depth ih =>
    simp only [settleRegular, Option.bind_eq_bind, Option.bind_eq_some_iff] at settled
    obtain ⟨entry, present, settled⟩ := settled
    split at settled
    · cases settled
      exact .refl
    · split at settled
      · cases settled
        exact setRegular_edits (by simp)
      · obtain ⟨middle, folded, settled⟩ := Option.bind_eq_some_iff.mp settled
        cases settled
        have edits : Edits fits catalog middle :=
          foldlM_edits (fun current part next _ earlier stepped => ih (earlier.sound sound) stepped) folded
        have settledSound := edits.sound sound
        have found := shape_after_parts present folded edits.outline
        have remade := Shape.regularize_remade (fun ty => (middle.regular? ty).getD ty) entry.shape
        have entered : Edits fits middle
            (middle.remake ty (entry.shape.regularize fun ty => (middle.regular? ty).getD ty)).2 :=
          settledSound.remake_edits found remade fun old inside => regular_known settledSound inside
        refine edits.trans (entered.trans (setRegular_edits ?_))
        rintro other ⟨⟩
        exact contains_of_shape (remake_shape found remade)

theorem settleFrom_edits {fuel pair : Nat} (sound : catalog.Sound) (settled : settleFrom fuel pair catalog = some final) :
    Edits fits catalog final := by
  induction fuel generalizing pair catalog with
  | zero => cases settled
  | succ fuel ih =>
    simp only [settleFrom] at settled
    split at settled
    · obtain ⟨first, oblivious, settled⟩ := Option.bind_eq_some_iff.mp settled
      obtain ⟨second, regular, settled⟩ := Option.bind_eq_some_iff.mp settled
      have one : Edits fits catalog first := settleOblivious_edits sound oblivious
      have two : Edits fits first second := settleRegular_edits (one.sound sound) regular
      exact one.trans (two.trans (ih (two.sound (one.sound sound)) settled))
    · cases settled
      exact .refl

theorem settlePolicy_edits {policy : DefaultPolicy} : Edits fits catalog (catalog.settlePolicy ty policy).2 := by
  have edit : Edit fits catalog (catalog.modifyEntry ty fun entry => { entry with policy := some policy }) := by
    refine .revise catalog ty _ ?_
    intro entry present
    exact ⟨rfl, fun above member => .inl member, fun part member => .inl member, fun symbol member => .inl member⟩
  exact .single edit

theorem setFieldPolicies_edits {policies : List DefaultPolicy} : Edits fits catalog (catalog.setFieldPolicies ty policies) := by
  have origin {fields : List Field} {field : Field}
      (member : field ∈ fields.zipWith (fun field policy => { field with policy }) policies) :
      ∃ old ∈ fields, old.ty = field.ty ∧ old.name = field.name := by
    rw [← List.map_uncurry_zip_eq_zipWith] at member
    obtain ⟨⟨old, policy⟩, paired, rfl⟩ := List.mem_map.mp member
    exact ⟨old, (List.of_mem_zip paired).1, rfl, rfl⟩
  refine modifyShape_edits _ _ _ (fun shape => shape.withFields_outline _) ?_ ?_ ?_
  · intro shape found above member
    cases shape <;> exact .inl member
  · intro shape found part member
    cases shape with
    | record name isValue fields =>
      obtain ⟨field, made, rfl⟩ := List.mem_map.mp member
      obtain ⟨old, present, same, -⟩ := origin made
      exact .inl (List.mem_map.mpr ⟨old, present, same⟩)
    | primary name fields secondaries abstractions =>
      simp only [Shape.withFields, Shape.fields, Shape.mentions, List.mem_append, List.mem_map] at member ⊢
      rcases member with (⟨field, made, rfl⟩ | member) | member
      · obtain ⟨old, present, same, -⟩ := origin made
        exact .inl (.inl (.inl ⟨old, present, same⟩))
      · exact .inl (.inl (.inr member))
      · exact .inl (.inr member)
    | _ => exact .inl member
  · intro shape found symbol member
    cases shape with
    | record name isValue fields | primary name fields secondaries abstractions =>
      simp only [Shape.withFields, Shape.fields, Shape.symbols, List.mem_append, List.mem_map] at member ⊢
      rcases member with member | ⟨field, made, rfl⟩
      · exact .inl (.inl member)
      · obtain ⟨old, present, -, same⟩ := origin made
        exact .inl (.inr ⟨old, present, same⟩)
    | _ => exact .inl member

inductive PolicyStep : Catalog → Catalog → Prop where
  | fields (catalog : Catalog) (ty : TypeId) (policies : List DefaultPolicy) :
      PolicyStep catalog (catalog.setFieldPolicies ty policies)
  | own (catalog : Catalog) (ty : TypeId) (policy : DefaultPolicy) : PolicyStep catalog (catalog.settlePolicy ty policy).2

abbrev PolicySteps : Catalog → Catalog → Prop :=
  Relation.ReflTransGen PolicyStep

theorem PolicySteps.edits (steps : PolicySteps catalog final) : Edits fits catalog final := by
  induction steps with
  | refl => exact .refl
  | tail _ step ih =>
    cases step with
    | fields => exact ih.trans setFieldPolicies_edits
    | own => exact ih.trans settlePolicy_edits

section Policies

variable {policyOf : PolicyOf} (each : ∀ catalog ty policy final, policyOf catalog ty = some (policy, final) →
  PolicySteps catalog final)

include each

theorem fieldPolicies_steps {fields : List Field} {policies : List DefaultPolicy}
    (found : fieldPolicies policyOf catalog fields = some (policies, final)) : PolicySteps catalog final := by
  induction fields generalizing catalog policies with
  | nil =>
    cases found
    exact .refl
  | cons field rest ih =>
    simp only [fieldPolicies, Option.bind_eq_bind] at found
    split at found
    · rw [Option.bind_some] at found
      obtain ⟨⟨others, last⟩, second, found⟩ := Option.bind_eq_some_iff.mp found
      cases found
      exact ih second
    · obtain ⟨⟨policy, middle⟩, first, found⟩ := Option.bind_eq_some_iff.mp found
      obtain ⟨⟨others, last⟩, second, found⟩ := Option.bind_eq_some_iff.mp found
      cases found
      have own := each catalog field.ty policy middle first
      exact own.trans (ih second)

theorem allAllowed_steps {types : List TypeId} {free : Bool} (found : allAllowed policyOf catalog types = some (free, final)) :
    PolicySteps catalog final := by
  induction types generalizing catalog with
  | nil =>
    cases found
    exact .refl
  | cons ty rest ih =>
    simp only [allAllowed, Option.bind_eq_bind, Option.bind_eq_some_iff] at found
    obtain ⟨⟨policy, middle⟩, first, found⟩ := found
    have own := each catalog ty policy middle first
    simp only at found
    split at found
    · exact own.trans (ih found)
    · cases found
      exact own

end Policies

theorem policyWithin_steps {depth : Nat} {visiting : List Nat} {policy : DefaultPolicy}
    (found : policyWithin depth visiting catalog ty = some (policy, final)) : PolicySteps catalog final := by
  induction depth generalizing visiting catalog ty policy final with
  | zero => cases found
  | succ depth ih =>
    have inner (visiting : List Nat) (catalog : Catalog) (ty : TypeId) (policy : DefaultPolicy) (final : Catalog)
        (found : policyWithin depth visiting catalog ty = some (policy, final)) : PolicySteps catalog final := ih found
    simp only [policyWithin] at found
    split at found
    · cases found
      exact .refl
    · obtain ⟨entry, -, found⟩ := Option.bind_eq_some_iff.mp found
      split at found
      · cases found
        exact .refl
      · split at found
        · cases found
          exact .single (.own ..)
        · cases found
          exact .single (.own ..)
        · cases found
          exact .single (.own ..)
        · split at found
          · cases found
            exact .refl
          · obtain ⟨⟨policies, middle⟩, fields, found⟩ := Option.bind_eq_some_iff.mp found
            cases found
            exact .tail (.tail (fieldPolicies_steps (inner _) fields) (.fields ..)) (.own ..)
        · split at found
          · cases found
            exact .refl
          · obtain ⟨⟨policies, middle⟩, fields, found⟩ := Option.bind_eq_some_iff.mp found
            cases found
            exact .tail (.tail (fieldPolicies_steps (inner _) fields) (.fields ..)) (.own ..)
        · split at found
          · cases found
            exact .refl
          · obtain ⟨⟨free, middle⟩, elements, found⟩ := Option.bind_eq_some_iff.mp found
            cases found
            exact .tail (allAllowed_steps (inner _) elements) (.own ..)
        · cases found
          exact .single (.own ..)

theorem withPolicies_steps (settled : catalog.withPolicies? = some final) : PolicySteps catalog final := by
  refine foldlM_chain ?_ settled
  intro current ty next _ _ stepped
  obtain ⟨⟨policy, after⟩, found, rfl⟩ := Option.map_eq_some_iff.mp stepped
  exact policyWithin_steps found

end Catalog

namespace Builder

open Catalog

variable {builder : Builder} {system : System} {diagnostics : Diagnostics} {fits : Catalog → Shape → Prop}

theorem lock_edits (sound : builder.catalog.Sound) (locked : builder.lock = some (system, diagnostics)) :
    Edits fits builder.catalog system.catalog ∧ system.references = .ofCatalog system.catalog := by
  simp only [lock, Option.bind_eq_bind, Option.bind_eq_some_iff] at locked
  obtain ⟨allowed, filled, formed, settled, final, policies, locked⟩ := locked
  cases locked
  have one : Edits fits builder.catalog allowed := withAllowed_edits filled
  have two : Edits fits allowed formed := settleFrom_edits (one.sound sound) settled
  exact ⟨one.trans (two.trans (withPolicies_steps policies).edits), rfl⟩

/-- The table of a locked system keeps what tables promise. -/
theorem Reached.locked_sound (reached : builder.Reached) (locked : builder.lock = some (system, diagnostics)) :
    system.catalog.Sound := by
  have sound := Reached.sound reached
  have edits : Edits (fun _ _ => True) builder.catalog system.catalog := (lock_edits sound locked).1
  exact edits.sound sound

end Builder
end Interchange
