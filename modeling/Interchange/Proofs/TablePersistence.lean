import Interchange.Proofs.DraftEntries
import Interchange.Proofs.LockEdits

/-! What no history can undo. Whatever ids are handed over, a call adds to the table or fills in what a declaration has
left open, and so does locking. Types keep their outlines, strings their symbols, and no identity is entered twice. -/

namespace Interchange

namespace Interner

variable {interner : Interner} {text : String} {symbol : Symbol}

theorem intern_find? (interner : Interner) (text : String) :
    (interner.intern text).2.find? text = some (interner.intern text).1 := by
  cases found : interner.find? text with
  | some symbol => rw [intern, found, found]
  | none =>
    have fresh : interner.strings.findIdx? (· == text) = none := by simpa [find?] using found
    simp [intern, find?, Array.findIdx?_push, fresh, size]

theorem intern_find?_kept (other : String) (found : interner.find? text = some symbol) :
    (interner.intern other).2.find? text = some symbol := by
  unfold intern
  split
  · exact found
  · obtain ⟨index, first, rfl⟩ := Option.map_eq_some_iff.mp found
    simp [find?, Array.findIdx?_push, first]

end Interner

namespace Catalog

/-- The later table has the strings of the earlier one and its types, each with the outline it had. If the types of the
earlier table were told apart by their identities, those of the later one are, too. -/
structure PersistsIn (before after : Catalog) : Prop where
  outline : ∀ {ty shape}, before.shape? ty = some shape → ∃ later, after.shape? ty = some later ∧ later.outline = shape.outline
  text : ∀ {text symbol}, before.strings.find? text = some symbol → after.strings.find? text = some symbol
  get? : ∀ {symbol text}, before.strings.get? symbol = some text → after.strings.get? symbol = some text
  unique : before.Unique → after.Unique

variable {catalog before middle after final : Catalog} {ty form : TypeId} {shape : Shape}

namespace PersistsIn

theorem refl (catalog : Catalog) : catalog.PersistsIn catalog :=
  ⟨fun {_ shape} found => ⟨shape, found, rfl⟩, id, id, id⟩

theorem trans (first : before.PersistsIn middle) (second : middle.PersistsIn after) : before.PersistsIn after := by
  refine ⟨?_, fun found => second.text (first.text found), fun found => second.get? (first.get? found),
    fun unique => second.unique (first.unique unique)⟩
  intro ty shape found
  obtain ⟨between, present, same⟩ := first.outline found
  obtain ⟨later, kept, final⟩ := second.outline present
  exact ⟨later, kept, final.trans same⟩

/-- A shape without a name stays as it is. -/
theorem anonymous (persists : before.PersistsIn after) (found : before.shape? ty = some shape) (anonymous : shape.name? = none) :
    after.shape? ty = some shape := by
  obtain ⟨later, kept, same⟩ := persists.outline found
  rw [kept, Shape.eq_of_outline_anonymous same anonymous]

theorem of_text (catalog : Catalog) (text : String) :
    catalog.PersistsIn { catalog with strings := (catalog.strings.intern text).2 } :=
  ⟨fun {_ shape} found => ⟨shape, found, rfl⟩, Interner.intern_find?_kept text, Interner.intern_keeps text, id⟩

theorem of_push {entry : Entry} (fresh : catalog.Fresh entry.shape) : catalog.PersistsIn (catalog.push entry).2 := by
  refine ⟨?_, id, id, fun unique => unique.push fresh⟩
  intro ty shape found
  have inside := contains_iff.mp (contains_of_shape found)
  exact ⟨shape, by rw [push_shape?, if_neg (by omega), found], rfl⟩

theorem of_modifyEntry {target : TypeId} {change : Entry → Entry}
    (outline : ∀ entry, (change entry).shape.outline = entry.shape.outline) :
    catalog.PersistsIn (catalog.modifyEntry target change fun entry => Shape.identity_of_outline (outline entry)) := by
  refine ⟨?_, id, id, fun unique => unique.of_outlines ?_⟩
  · intro ty shape found
    obtain ⟨entry, present, rfl⟩ := shape?_eq_some_iff.mp found
    by_cases same : target.pair = ty.pair
    · refine ⟨(change entry).shape, shape?_eq_some_iff.mpr ⟨change entry, ?_, rfl⟩, outline entry⟩
      rw [modifyEntry_lookup, if_pos same, present]
      rfl
    · refine ⟨entry.shape, shape?_eq_some_iff.mpr ⟨entry, ?_, rfl⟩, rfl⟩
      rw [modifyEntry_lookup, if_neg same, present]
  · intro ty shape found
    obtain ⟨entry, present, rfl⟩ := shape?_eq_some_iff.mp found
    rw [modifyEntry_lookup] at present
    split at present
    · obtain ⟨old, origin, rfl⟩ := Option.map_eq_some_iff.mp present
      exact ⟨old.shape, shape?_eq_some_iff.mpr ⟨old, origin, rfl⟩, outline old⟩
    · exact ⟨entry.shape, shape?_eq_some_iff.mpr ⟨entry, present, rfl⟩, rfl⟩

theorem of_modifyShape {target : TypeId} {change : Shape → Shape} (outline : ∀ shape, (change shape).outline = shape.outline) :
    catalog.PersistsIn (catalog.modifyShape target change fun shape => Shape.identity_of_outline (outline shape)) :=
  .of_modifyEntry fun entry => outline entry.shape

theorem of_edits {fits : Catalog → Shape → Prop} (edits : Edits fits before after) : before.PersistsIn after := by
  refine ⟨edits.outline, ?_, edits.get?, ?_⟩
  · intro text symbol found
    induction edits with
    | refl => exact found
    | tail _ edit ih =>
      cases edit with
      | note other => exact Interner.intern_find?_kept other ih
      | enter | declare | revise => exact ih
  · intro unique
    induction edits with
    | refl => exact unique
    | tail _ edit ih => exact edit.unique ih

theorem of_additions (additions : Additions before after) : before.PersistsIn after := by
  induction additions with
  | refl => exact .refl _
  | tail _ addition ih =>
    cases addition with
    | text text => exact ih.trans (.of_text _ text)
    | shape anonymous fresh => exact ih.trans (.of_push (.of_anonymous anonymous fresh))

theorem of_intern (catalog : Catalog) {shape : Shape} (anonymous : shape.name? = none) :
    catalog.PersistsIn (catalog.intern shape).2 :=
  .of_additions (intern_additions anonymous)

/-- What a type is remade into is the type itself, or it has no name. -/
theorem of_remake (catalog : Catalog) (ty : TypeId) (shape : Shape) : catalog.PersistsIn (catalog.remake ty shape).2 := by
  unfold remake
  split
  next built => exact .of_intern catalog (Shape.anonymous_of_isBuilt built)
  next => exact .refl _

theorem of_internOption (catalog : Catalog) (text : Option String) :
    catalog.PersistsIn { catalog with strings := (catalog.strings.internOption text).2 } := by
  cases text with
  | none => exact .refl _
  | some text => exact .of_text catalog text

theorem of_internAll (catalog : Catalog) (texts : List String) :
    catalog.PersistsIn { catalog with strings := (catalog.strings.internAll texts).2 } := by
  induction texts generalizing catalog with
  | nil => exact .refl _
  | cons text rest ih => exact (of_text catalog text).trans (ih _)

/-- What a table holds outlasts a fold if it outlasts each step. -/
theorem of_foldlM {α : Type} {step : Catalog → α → Option Catalog} {items : List α}
    (each : ∀ catalog item next, step catalog item = some next → catalog.PersistsIn next)
    (folded : items.foldlM step before = some after) : before.PersistsIn after :=
  foldlM_holds (fun _ => before.PersistsIn) (.refl _)
    (fun _ catalog item next _ earlier stepped => earlier.trans (each catalog item next stepped)) folded

end PersistsIn

theorem setOblivious_persists : catalog.PersistsIn (catalog.setOblivious ty form) := by
  unfold setOblivious
  refine PersistsIn.trans (.of_modifyEntry ?_) (.of_modifyEntry ?_)
  · exact fun _ => rfl
  · exact fun _ => rfl

theorem setRegular_persists {form : Option TypeId} : catalog.PersistsIn (catalog.setRegular ty form) := by
  refine .of_modifyEntry ?_
  exact fun _ => rfl

theorem settleOblivious_persists {depth : Nat} (settled : settleOblivious depth catalog ty = some final) :
    catalog.PersistsIn final := by
  induction depth generalizing catalog ty final with
  | zero => cases settled
  | succ depth ih =>
    simp only [settleOblivious, Option.bind_eq_bind, Option.bind_eq_some_iff] at settled
    obtain ⟨entry, present, settled⟩ := settled
    split at settled
    · cases settled
      exact .refl _
    · obtain ⟨middle, folded, settled⟩ := Option.bind_eq_some_iff.mp settled
      cases settled
      have parts : catalog.PersistsIn middle := .of_foldlM (fun _ _ _ stepped => ih stepped) folded
      have kept := shape_after_parts present folded parts.outline
      exact parts.trans ((PersistsIn.of_remake _ _ _).trans setOblivious_persists)

theorem settleRegular_persists {depth : Nat} (settled : settleRegular depth catalog ty = some final) :
    catalog.PersistsIn final := by
  induction depth generalizing catalog ty final with
  | zero => cases settled
  | succ depth ih =>
    simp only [settleRegular, Option.bind_eq_bind, Option.bind_eq_some_iff] at settled
    obtain ⟨entry, present, settled⟩ := settled
    split at settled
    · cases settled
      exact .refl _
    · split at settled
      · cases settled
        exact setRegular_persists
      · obtain ⟨middle, folded, settled⟩ := Option.bind_eq_some_iff.mp settled
        cases settled
        have parts : catalog.PersistsIn middle := .of_foldlM (fun _ _ _ stepped => ih stepped) folded
        have kept := shape_after_parts present folded parts.outline
        exact parts.trans ((PersistsIn.of_remake _ _ _).trans setRegular_persists)

theorem settleFrom_persists {fuel pair : Nat} (settled : settleFrom fuel pair catalog = some final) : catalog.PersistsIn final := by
  induction fuel generalizing pair catalog with
  | zero => cases settled
  | succ fuel ih =>
    simp only [settleFrom] at settled
    split at settled
    · obtain ⟨first, oblivious, settled⟩ := Option.bind_eq_some_iff.mp settled
      obtain ⟨second, regular, settled⟩ := Option.bind_eq_some_iff.mp settled
      exact (settleOblivious_persists oblivious).trans ((settleRegular_persists regular).trans (ih settled))
    · cases settled
      exact .refl _

end Catalog

namespace Builder

open Catalog

variable {builder final : Builder}

theorem declare_persists (builder : Builder) (name : String) (attributes : Attributes) {shape : Symbol → Shape}
    (named : ∀ symbol, (shape symbol).name? = some symbol) :
    builder.catalog.PersistsIn (builder.declare name attributes shape).2.catalog := by
  have noted := PersistsIn.of_text builder.catalog name
  simp only [declare]
  split
  · exact noted
  next absent =>
    exact noted.trans ((PersistsIn.of_internOption _ attributes.externalName).trans
      ((PersistsIn.of_internAll _ attributes.previousNames).trans (.of_push (.of_named (named _) absent))))

theorem declareSecondary_persists {name : String} {head ty : TypeId} {attributes : Attributes}
    (declared : builder.declareSecondary name head attributes = some (ty, final)) : builder.catalog.PersistsIn final.catalog := by
  simp only [declareSecondary] at declared
  split at declared
  · cases declared
    have entered := @declare_persists builder name attributes (fun symbol => .secondary symbol head.nonNull) fun _ => rfl
    exact entered.trans (.of_modifyShape fun shape => shape.addSecondary_outline _)
  · cases declared

theorem implement_persists {family above : TypeId} (implemented : builder.implement family above = some final) :
    builder.catalog.PersistsIn final.catalog := by
  simp only [implement, Option.bind_eq_bind, Option.bind_eq_some_iff] at implemented
  obtain ⟨higher, -, implemented⟩ := implemented
  split at implemented
  · obtain ⟨lower, -, implemented⟩ := Option.bind_eq_some_iff.mp implemented
    split at implemented
    · cases implemented
      exact .of_modifyShape fun shape => shape.addAbstraction_outline _
    · rw [reportKind_catalog implemented]
      exact .refl _
  · rw [reportKind_catalog implemented]
    exact .refl _

theorem defineMembers_persists {owner : TypeId} {members : List (Option TypeId × Member)}
    (defined : builder.defineMembers owner members = some final) : builder.catalog.PersistsIn final.catalog := by
  rcases defineMembers_cases defined with ⟨-, same⟩ | ⟨_, _, _, fields, _, -, -, collecting, resolving, same⟩
  · rw [same]
    exact .refl _
  · have added := PersistsIn.of_additions ((collectSlots_additions collecting).trans (resolveSlots_additions resolving))
    rw [same]
    exact added.trans (.of_modifyShape fun shape => shape.withFields_outline fields)

end Builder

theorem Call.persists {builder final : Builder} (call : Call) (ran : call.run builder = some final) :
    builder.catalog.PersistsIn final.catalog := by
  cases call with
  | enumeration name underlying attributes =>
    cases ran
    unfold Builder.declareEnum
    split
    · exact builder.declare_persists name attributes fun _ => rfl
    · exact Builder.declare_persists (builder.report _) name attributes fun _ => rfl
  | record | primary | abstraction =>
    cases ran
    exact builder.declare_persists _ _ fun _ => rfl
  | secondary name head attributes =>
    obtain ⟨result, declared, rfl⟩ := Option.map_eq_some_iff.mp ran
    exact Builder.declareSecondary_persists declared
  | implement family above => exact Builder.implement_persists ran
  | array | list | set | dictionary | tuple | union =>
    cases ran
    exact .of_intern _ rfl
  | namedTuple items =>
    cases ran
    exact .of_additions (Builder.namedTuple_additions builder items)
  | resolvePair left right =>
    simp only [run, Builder.resolvePair] at ran
    cases outcome : builder.catalog.resolvePair left right with
    | error conflict =>
      simp only [outcome, bind, Except.bind] at ran
      cases ran
      exact .refl _
    | ok result =>
      simp only [outcome, bind, Except.bind, pure, Except.pure] at ran
      cases ran
      exact .of_additions (Catalog.resolveWithin_additions outcome)
  | resolveSlot types =>
    cases ran
    exact .of_additions (Catalog.resolveSlot_additions _ types)
  | defineFields | defineFamily => exact Builder.defineMembers_persists ran

namespace Builder

variable {builder : Builder} {system : System} {diagnostics : Diagnostics} {allowed : Builder → Call → Prop}

theorem ReachedBy.persists (reached : ReachedBy allowed builder) : Catalog.standard.PersistsIn builder.catalog := by
  induction reached with
  | new => exact .refl _
  | call _ call _ ran ih => exact ih.trans (call.persists ran)

theorem lock_persists (locked : builder.lock = some (system, diagnostics)) : builder.catalog.PersistsIn system.catalog := by
  simp only [lock, Option.bind_eq_bind, Option.bind_eq_some_iff] at locked
  obtain ⟨allowed, filled, formed, settled, final, policies, locked⟩ := locked
  cases locked
  have filling : Catalog.Edits (fun _ _ => True) builder.catalog allowed := Catalog.withAllowed_edits filled
  have judging : Catalog.Edits (fun _ _ => True) formed final := (Catalog.withPolicies_steps policies).edits
  exact (Catalog.PersistsIn.of_edits filling).trans ((Catalog.settleFrom_persists settled).trans (.of_edits judging))

end Builder

namespace System

variable {system : System}

/-- Locked after any history of calls, whatever ids were handed over. -/
def Locked (system : System) : Prop :=
  ∃ builder diagnostics, Builder.ReachedBy (fun _ _ => True) builder ∧ builder.lock = some (system, diagnostics)

theorem Locked.of_reached {builder : Builder} {diagnostics : Diagnostics} {allowed : Builder → Call → Prop}
    (reached : Builder.ReachedBy allowed builder) (locked : builder.lock = some (system, diagnostics)) : system.Locked := by
  refine ⟨builder, diagnostics, ?_, locked⟩
  clear locked
  induction reached with
  | new => exact .new
  | call _ call _ ran ih => exact .call ih call trivial ran

theorem Locked.universal (locked : system.Locked) : system.shape? .any = some .any := by
  obtain ⟨builder, diagnostics, reached, locked⟩ := locked
  exact (reached.persists.trans (Builder.lock_persists locked)).anonymous (by decide) rfl

theorem Locked.indexed (locked : system.Locked) : system.references = .ofCatalog system.catalog := by
  obtain ⟨builder, diagnostics, -, locked⟩ := locked
  simp only [Builder.lock, Option.bind_eq_bind, Option.bind_eq_some_iff] at locked
  obtain ⟨allowed, -, formed, -, final, -, locked⟩ := locked
  cases locked
  rfl

end System
end Interchange
