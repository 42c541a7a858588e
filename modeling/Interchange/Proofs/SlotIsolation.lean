import Interchange.Proofs.MemberCounterparts

/-! Slots do not interfere. What becomes of the declarations of one name depends on no others: leaving out all
declarations of a name changes none of the other fields, whether or not a field was made of them. -/

namespace Interchange

structure FieldView where
  name : String
  ty : Structure
  explicitDefault : Bool
  origin : Option TypeId

namespace Catalog

def fieldView? (catalog : Catalog) (field : Field) : Option FieldView := do
  let name ← catalog.strings.get? field.name
  let ty ← catalog.unfolded? field.ty
  return ⟨name, ty, field.explicitDefault, field.origin⟩

def fieldViews? (catalog : Catalog) (owner : TypeId) : Option (List FieldView) := do
  let shape ← catalog.shape? owner
  shape.fields.mapM catalog.fieldView?

variable {catalog before after one two : Catalog} {owner : TypeId} {fields : List Field} {field : Field} {view : FieldView}

theorem mapM_append {α β : Type} {read : α → Option β} {items others : List α} {values rest : List β}
    (first : items.mapM read = some values) (second : others.mapM read = some rest) :
    (items ++ others).mapM read = some (values ++ rest) := by
  rw [List.mapM_append, first, second]
  rfl

theorem fieldView?_eq_some_iff : catalog.fieldView? field = some view ↔
    catalog.strings.get? field.name = some view.name ∧ catalog.unfolded? field.ty = some view.ty ∧
      field.explicitDefault = view.explicitDefault ∧ field.origin = view.origin := by
  obtain ⟨name, ty, explicitDefault, origin⟩ := view
  simp [fieldView?, Option.bind_eq_some_iff]

theorem Develops.fieldView? (develops : before.Develops after) (sound : before.Sound)
    (read : before.fieldView? field = some view) : after.fieldView? field = some view := by
  obtain ⟨spelled, written, rest⟩ := fieldView?_eq_some_iff.mp read
  obtain ⟨shape, -, found, -⟩ := unfolded?_cases sound written
  refine fieldView?_eq_some_iff.mpr ⟨develops.extension.get? spelled, ?_, rest⟩
  rw [develops.extension.unfolded? sound (contains_of_shape found), written]

theorem Develops.fieldViews {views : List FieldView} (develops : before.Develops after) (sound : before.Sound)
    (read : fields.mapM before.fieldView? = some views) : fields.mapM after.fieldView? = some views := by
  induction fields generalizing views with
  | nil => exact read
  | cons field rest ih =>
    simp only [List.mapM_cons, Option.bind_eq_bind, Option.bind_eq_some_iff] at read ⊢
    obtain ⟨view, shown, others, reads, made⟩ := read
    exact ⟨view, develops.fieldView? sound shown, others, ih reads, made⟩

/-- Fields do not show when a type is written out. -/
theorem unfoldWithin_withFields (depth : Nat) :
    (catalog.modifyShape owner fun shape => shape.withFields fields).unfoldWithin depth = catalog.unfoldWithin depth := by
  induction depth with
  | zero => rfl
  | succ depth ih =>
    funext ty
    have shapes (shape : Shape) : (catalog.modifyShape owner fun shape => shape.withFields fields).unfoldShape
        (catalog.unfoldWithin depth) (shape.withFields fields) = catalog.unfoldShape (catalog.unfoldWithin depth) shape := by
      cases shape <;> rfl
    simp only [unfoldWithin, ih, modifyShape_shape?]
    split
    · cases catalog.shape? ty with
      | none => rfl
      | some shape => simp only [Option.map_some, Option.bind_eq_bind, Option.bind_some, shapes]
    · rfl

theorem fieldViews?_withFields {shape : Shape} (found : catalog.shape? owner = some shape)
    (composite : shape.kind.isComposite = true) :
    (catalog.modifyShape owner fun shape => shape.withFields fields).fieldViews? owner = fields.mapM catalog.fieldView? := by
  have given : (shape.withFields fields).fields = fields := by
    cases shape <;> first | rfl | cases composite
  have written : (catalog.modifyShape owner fun shape => shape.withFields fields).fieldView? = catalog.fieldView? := by
    have length : (catalog.modifyShape owner fun shape => shape.withFields fields).size = catalog.size := modifyEntry_size _
    funext field
    simp only [fieldView?, unfolded?, unfoldWithin_withFields, length]
    rfl
  simp only [fieldViews?, modifyShape_shape?, found, ↓reduceIte, Option.map_some, Option.bind_eq_bind, Option.bind_some, given,
    written]

end Catalog

namespace Builder

open Catalog

variable {base : Catalog} {builder one two three : Builder} {owner : String} {slot slot' : Slot} {location : Location}

theorem andThen_some {field : Option Field} {run : Builder → Option (List Field × Builder)} :
    andThen (some (field, builder)) run = (run builder).map fun result => (field.toList ++ result.1, result.2) := by
  simp [andThen, Option.map_eq_bind]

theorem reportConflict_told {conflict : SlotConflict} (sound : builder.catalog.Sound) (told : builder.catalog.Tells conflict) :
    ∃ later, builder.reportConflict conflict location = some later ∧ later.catalog = builder.catalog := by
  obtain ⟨left, leftShown⟩ := display?_known sound told.left
  obtain ⟨right, rightShown⟩ := display?_known sound told.right
  obtain ⟨reason, innerLeft, innerRight, cause, inside, inside'⟩ := told.cause
  obtain ⟨first, firstShown⟩ := display?_known sound inside
  obtain ⟨second, secondShown⟩ := display?_known sound inside'
  simp [reportConflict, leftShown, rightShown, cause, describe?, firstShown, secondShown, report]

theorem reportConflict_endless {conflict : SlotConflict} (cause : conflict.cause = .unregistered) :
    builder.reportConflict conflict location = none := by
  simp [reportConflict, cause, describe?]

/-- A slot comes to the same in both tables: at most one field, which looks the same, or no end. -/
inductive Settled (slot : Slot) (one two : Builder) :
    Option (Option Field × Builder) → Option (Option Field × Builder) → Prop where
  | endless {conflict : SlotConflict} (failed : (one.catalog.resolveSlot (slot.declared.map Declared.ty)).1 = .error conflict)
      (cause : conflict.cause = .unregistered) : Settled slot one two none none
  | ended {field field' : Option Field} {later further : Builder} {views : List FieldView}
      (first : one.catalog.Develops later.catalog) (second : two.catalog.Develops further.catalog)
      (named : ∀ view ∈ views, view.name = slot.name) (read : field.toList.mapM later.catalog.fieldView? = some views)
      (read' : field'.toList.mapM further.catalog.fieldView? = some views) :
      Settled slot one two (some (field, later)) (some (field', further))

theorem Settled.dropped {later further : Builder} (first : one.catalog.Develops later.catalog)
    (second : two.catalog.Develops further.catalog) : Settled slot one two (some (none, later)) (some (none, further)) :=
  .ended first second (by simp) rfl rfl

theorem Settled.made {field field' : Field} {later further : Builder} {view : FieldView}
    (first : one.catalog.Develops later.catalog) (second : two.catalog.Develops further.catalog)
    (named : view.name = slot.name) (read : later.catalog.fieldView? field = some view)
    (read' : further.catalog.fieldView? field' = some view) :
    Settled slot one two (some (some field, later)) (some (some field', further)) := by
  refine @Settled.ended slot one two _ _ _ _ [view] first second ?_ ?_ ?_
  · simpa using named
  · simp [read]
  · simp [read']

theorem settleSlot_agree (branches : Branches base one.catalog two.catalog)
    (alike : AlikeSlots one.catalog two.catalog slot slot') :
    Settled slot one two (one.settleSlot owner slot) (two.settleSlot owner slot') := by
  have types : List.Forall₂ (Alike one.catalog two.catalog) (slot.declared.map Declared.ty) (slot'.declared.map Declared.ty) :=
    List.forall₂_map_left_iff.mpr (List.forall₂_map_right_iff.mpr (alike.declared.imp fun _ _ own => own.ty))
  have agreement := resolveSlot_agree branches types
  simp only [settleSlot, resolveSlot]
  generalize resolved : one.catalog.resolveSlot (slot.declared.map Declared.ty) = outcome at agreement ⊢
  generalize two.catalog.resolveSlot (slot'.declared.map Declared.ty) = outcome' at agreement ⊢
  cases agreement with
  | empty first second => exact .dropped first second
  | endless cause cause' =>
    simp only [reportConflict_endless cause, reportConflict_endless cause', Option.map_none]
    exact .endless (congrArg Prod.fst resolved) cause
  | @clash conflict conflict' later further first second told told' =>
    have grew := branches.grow first second
    obtain ⟨reported, report, same⟩ := @reportConflict_told { one with catalog := later } (.ofMember owner slot.name) conflict
      grew.oneSound told
    obtain ⟨reported', report', same'⟩ := @reportConflict_told { two with catalog := further } (.ofMember owner slot'.name) conflict'
      grew.twoSound told'
    simp only [report, report', Option.map_some]
    exact .dropped (by rwa [same]) (by rwa [same'])
  | @ok ty ty' later further first second alike' =>
    have grew := branches.grow first second
    have noted := later.note_develops slot.name
    have noted' := further.note_develops slot'.name
    obtain ⟨unfolded, written, written'⟩ := alike'.extend grew noted noted'
    have spelled := Interner.intern_get? later.strings slot.name
    have spelled' : (further.strings.intern slot'.name).2.get? (further.strings.intern slot'.name).1 = some slot.name := by
      rw [alike.name]
      exact Interner.intern_get? further.strings slot'.name
    let view : FieldView :=
      ⟨slot.name, unfolded, slot.declared.any Declared.explicitDefault, slot.declared.head?.bind Declared.origin⟩
    exact @Settled.made one two slot _ _ _ _ view (first.trans noted) (second.trans noted') rfl
      (fieldView?_eq_some_iff.mpr ⟨spelled, written, rfl, rfl⟩)
      (fieldView?_eq_some_iff.mpr
        ⟨spelled', written', (AlikeDeclared.any alike.declared).symm, (AlikeDeclared.first alike.declared).symm⟩)

/-- A run over all slots is put together from the runs over the slots of two kinds of names. -/
inductive Split (keep : String → Bool) (one two : Builder) :
    Option (List Field × Builder) → Option (List Field × Builder) → Option (List Field × Builder) → Prop where
  | endless {kept left : Option (List Field × Builder)} (either : kept = none ∨ left = none) : Split keep one two none kept left
  | done {fields fields' fields'' : List Field} {final final' final'' : Builder} {views : List FieldView}
      (first : one.catalog.Develops final.catalog) (second : two.catalog.Develops final'.catalog)
      (read : fields.mapM final.catalog.fieldView? = some views)
      (read' : fields'.mapM final'.catalog.fieldView? = some (views.filter fun view => keep view.name)) :
      Split keep one two (some (fields, final)) (some (fields', final')) (some (fields'', final''))

section Steps

variable {keep : String → Bool} {run run' : Builder → Option (List Field × Builder)}
  {outcome outcome' : Option (Option Field × Builder)} {other : Option (List Field × Builder)}

theorem Settled.split_kept (keeps : keep slot.name = true) (sound : one.catalog.Sound) (sound' : two.catalog.Sound)
    (step : Settled slot one two outcome outcome')
    (rest : ∀ later further : Builder, one.catalog.Develops later.catalog → two.catalog.Develops further.catalog →
      Split keep later further (run later) (run' further) other) :
    Split keep one two (andThen outcome run) (andThen outcome' run') other := by
  cases step with
  | endless => exact .endless (.inl rfl)
  | @ended field field' later further own first second named read read' =>
    have after := rest later further first second
    simp only [andThen_some]
    generalize run later = result at after ⊢
    generalize run' further = result' at after ⊢
    cases after with
    | endless either => exact .endless (either.imp (fun none => by rw [none, Option.map_none]) id)
    | @done fields fields' fields'' final final' final'' views third fourth reads reads' =>
      have kept : own.filter (fun view => keep view.name) = own :=
        List.filter_eq_self.mpr fun view member => (congrArg keep (named view member)).trans keeps
      have shown := third.fieldViews (first.sound sound) read
      have shown' := fourth.fieldViews (second.sound sound') read'
      refine .done (first.trans third) (second.trans fourth) (mapM_append shown reads) ?_
      rw [List.filter_append, kept]
      exact mapM_append shown' reads'

theorem Settled.split_left (leaves : keep slot.name = false) (sound : one.catalog.Sound)
    (step : Settled slot one three outcome outcome')
    (rest : ∀ later further : Builder, one.catalog.Develops later.catalog → three.catalog.Develops further.catalog →
      Split keep later two (run later) other (run' further)) :
    Split keep one two (andThen outcome run) other (andThen outcome' run') := by
  cases step with
  | endless => exact .endless (.inr rfl)
  | @ended field field' later further own first second named read read' =>
    have after := rest later further first second
    simp only [andThen_some]
    generalize run later = result at after ⊢
    generalize run' further = result' at after ⊢
    cases after with
    | endless either => exact .endless (either.imp id fun none => by rw [none, Option.map_none])
    | @done fields fields' fields'' final final' final'' views third fourth reads reads' =>
      have left : own.filter (fun view => keep view.name) = [] :=
        List.filter_eq_nil_iff.mpr fun view member => by simp [named view member, leaves]
      have shown := third.fieldViews (first.sound sound) read
      refine .done (first.trans third) fourth (mapM_append shown reads) ?_
      rw [List.filter_append, left]
      exact reads'

end Steps

/-- No slot has an effect on another: each run over some of the slots makes of them what the run over all slots does. -/
theorem resolveSlots_split {keep : String → Bool} {slots slots' slots'' : List Slot}
    (branches : Branches base one.catalog two.catalog) (branches' : Branches base one.catalog three.catalog)
    (kept : List.Forall₂ (AlikeSlots one.catalog two.catalog) (slots.filter fun slot => keep slot.name) slots')
    (left : List.Forall₂ (AlikeSlots one.catalog three.catalog) (slots.filter fun slot => !keep slot.name) slots'') :
    Split keep one two (one.resolveSlots owner slots) (two.resolveSlots owner slots') (three.resolveSlots owner slots'') := by
  induction slots generalizing one two three slots' slots'' with
  | nil =>
    cases kept
    cases left
    exact .done (.refl _) (.refl _) rfl rfl
  | cons slot rest ih =>
    cases keeps : keep slot.name with
    | true =>
      rw [List.filter_cons_of_pos (by exact keeps)] at kept
      rw [List.filter_cons_of_neg (by simp [keeps])] at left
      obtain ⟨slot', rest', own, others, rfl⟩ := List.forall₂_cons_left_iff.mp kept
      rw [resolveSlots, resolveSlots]
      apply (settleSlot_agree branches own).split_kept keeps branches.oneSound branches.twoSound
      intro later further first second
      exact ih (branches.grow first second) (branches'.grow first (.refl _))
        (others.imp fun _ _ slot => slot.extend branches first second)
        (left.imp fun _ _ slot => slot.extend branches' first (.refl _))
    | false =>
      rw [List.filter_cons_of_neg (by simp [keeps])] at kept
      rw [List.filter_cons_of_pos (by simp [keeps])] at left
      obtain ⟨slot', rest', own, others, rfl⟩ := List.forall₂_cons_left_iff.mp left
      rw [resolveSlots, resolveSlots]
      apply (settleSlot_agree branches' own).split_left keeps branches.oneSound
      intro later further first second
      exact ih (branches.grow first (.refl _)) (branches'.grow first second)
        (kept.imp fun _ _ slot => slot.extend branches first (.refl _))
        (others.imp fun _ _ slot => slot.extend branches' first second)

/-- Without a cycle of interfaces every slot comes to its end. -/
theorem resolveSlots_ends {slots : List Slot} (sound : builder.catalog.Sound) (acyclic : builder.catalog.Acyclic)
    (known : ∀ slot ∈ slots, ∀ declared ∈ slot.declared, builder.catalog.contains declared.ty = true) :
    (builder.resolveSlots owner slots).isSome = true := by
  induction slots generalizing builder with
  | nil => rfl
  | cons slot rest ih =>
    have own := known slot (by simp)
    have advance {field : Option Field} {later : Builder} (develops : builder.catalog.Develops later.catalog) :
        (andThen (some (field, later)) fun later => later.resolveSlots owner rest).isSome = true := by
      rw [andThen_some, Option.isSome_map]
      apply ih (develops.sound sound) (acyclic.extend develops.extension)
      intro slot member declared present
      exact develops.extension.contains (known slot (by simp [member]) declared present)
    have step := @settleSlot_agree _ builder builder owner slot slot (.self sound) (.self sound own)
    rw [resolveSlots]
    generalize builder.settleSlot owner slot = outcome at step ⊢
    cases step with
    | ended develops => exact advance develops
    | endless failed cause =>
      refine absurd cause (resolveSlot_ends sound acyclic ?_ failed)
      intro ty member
      obtain ⟨declared, present, rfl⟩ := List.mem_map.mp member
      exact own declared present

theorem defineMembers_eq {owner : TypeId} {shape : Shape} {name : String} {members : List (Option TypeId × Member)}
    {slots : List Slot} {later : Builder} (found : builder.catalog.shape? owner = some shape)
    (composite : shape.kind.isComposite = true) (shown : builder.catalog.display? owner.nonNull = some name)
    (collected : builder.collectSlots name [] members = some (slots, later)) :
    builder.defineMembers owner members = (later.resolveSlots name slots).map fun result =>
      { result.2 with catalog := result.2.catalog.modifyShape owner fun shape => shape.withFields result.1 } := by
  simp [defineMembers, found, composite, shown, collected, Option.map_eq_bind]

/-- A definition of members, the same without the declarations of one name, and the same with no others. -/
structure Isolated (builder : Builder) (owner : TypeId) (name : String) (whole rest single : Option Builder) : Prop where
  fields : ∀ after, whole = some after → ∃ other views, rest = some other ∧
    after.catalog.fieldViews? owner = some views ∧
    other.catalog.fieldViews? owner = some (views.filter fun view => view.name ≠ name)
  returns : whole.isSome = (rest.isSome && single.isSome)
  ends : builder.catalog.Acyclic → whole.isSome = true

theorem defineMembers_isolated {owner : TypeId} {shape : Shape} {members : List (Option TypeId × Member)} (name : String)
    (sound : builder.catalog.Sound) (found : builder.catalog.shape? owner = some shape)
    (composite : shape.kind.isComposite = true)
    (known : ∀ member ∈ members, ∀ ty ∈ member.2.mentions, builder.catalog.contains ty = true) :
    builder.Isolated owner name (builder.defineMembers owner members)
      (builder.defineMembers owner (members.filter fun member => member.2.name ≠ name))
      (builder.defineMembers owner (members.filter fun member => !decide (member.2.name ≠ name))) := by
  let keep (text : String) : Bool := text ≠ name
  have start := Branches.self sound
  obtain ⟨title, shown⟩ := display?_known sound (show builder.catalog.contains owner.nonNull = true from contains_of_shape found)
  obtain ⟨slots, later, slots', further, collected, collected', first, second, kept⟩ :=
    @collectSlots_agree _ builder builder keep title members [] [] start known .nil
  obtain ⟨again, same, slots'', third, repeated, collected'', -, fourth, left⟩ :=
    @collectSlots_agree _ builder builder (fun text => !keep text) title members [] [] start known .nil
  cases collected.symm.trans repeated
  have split := @resolveSlots_split _ later further third title keep slots slots' slots'' (start.grow first second)
    (start.grow first fourth) kept left
  rw [defineMembers_eq found composite shown collected, defineMembers_eq found composite shown collected',
    defineMembers_eq found composite shown collected'']
  have ends : builder.catalog.Acyclic → (later.resolveSlots title slots).isSome = true := by
    intro acyclic
    obtain ⟨-, inside⟩ := @collectSlots_edits builder later (fun _ _ => True) title members [] slots sound known (by simp) collected
    exact resolveSlots_ends (first.sound sound) (acyclic.extend first.extension) inside
  generalize later.resolveSlots title slots = whole at split ends ⊢
  generalize further.resolveSlots title slots' = rest at split ⊢
  generalize third.resolveSlots title slots'' = single at split ⊢
  cases split with
  | endless either =>
    refine ⟨nofun, ?_, fun acyclic => by simpa using ends acyclic⟩
    rcases either with rfl | rfl <;> simp
  | @done fields fields' fields'' final final' final'' views last last' read read' =>
    refine ⟨?_, rfl, fun _ => rfl⟩
    intro after returned
    cases returned
    have present := last.extension.shape (first.extension.shape found)
    have present' := last'.extension.shape (second.extension.shape found)
    exact ⟨_, views, rfl, (fieldViews?_withFields present composite).trans read,
      (fieldViews?_withFields present' composite).trans read'⟩

/-- Slots are isolated: what is declared under one name has no effect on the other fields, and the definition of all
members returns exactly if that without the name and that of the name alone do. -/
theorem slots_isolated {owner : TypeId} (reached : builder.Reached)
    (composite : builder.catalog.kind? owner = some .record ∨ builder.catalog.kind? owner = some .primary) (name : String) :
    (∀ members : List Member, (∀ member ∈ members, ∀ ty ∈ member.mentions, builder.catalog.contains ty = true) →
      builder.Isolated owner name (builder.defineFields owner members)
        (builder.defineFields owner (members.filter fun member => member.name ≠ name))
        (builder.defineFields owner (members.filter fun member => member.name = name))) ∧
    ∀ members : List (TypeId × Member), (∀ member ∈ members, ∀ ty ∈ member.2.mentions, builder.catalog.contains ty = true) →
      builder.Isolated owner name (builder.defineFamily owner members)
        (builder.defineFamily owner (members.filter fun member => member.2.name ≠ name))
        (builder.defineFamily owner (members.filter fun member => member.2.name = name)) := by
  have sound := Reached.sound reached
  have owned : ∃ shape, builder.catalog.shape? owner = some shape ∧ shape.kind.isComposite = true := by
    rcases composite with kind | kind <;> obtain ⟨shape, found, kind⟩ := shape_of_kind kind <;>
      exact ⟨shape, found, by rw [kind]; rfl⟩
  obtain ⟨shape, found, composite⟩ := owned
  constructor
  · intro members known
    have isolated := @defineMembers_isolated builder owner shape (members.map fun member => (none, member)) name sound found
      composite (List.forall_mem_map.mpr known)
    simpa [defineFields, List.filter_map, Function.comp_def] using isolated
  · intro members known
    have isolated := @defineMembers_isolated builder owner shape
      (members.map fun member => (some member.1.nonNull, member.2)) name sound found composite (List.forall_mem_map.mpr known)
    simpa [defineFamily, List.filter_map, Function.comp_def] using isolated

/-- A family of two interfaces and two lists. -/
def warehouse : Builder :=
  Builder.new.replay [.primary "Stock" {}, .secondary "Audit" (.ofPair 19) {}, .list .any .abstract,
    .list BasicType.int.id .readOnly]

theorem warehouse_reached : warehouse.Reached :=
  ReachedBy.new.replay (by decide +kernel)

/-- The keys disagree; the counts meet in a list that is new. -/
def stockMembers : List (TypeId × Member) :=
  [(.ofPair 19, ⟨"Key", .any, .notNull, .notNull, {}, none, some [BasicType.int.id, BasicType.string.id]⟩),
    (.ofPair 19, ⟨"Counts", .ofPair 21, .notNull, .notNull, {}, none, none⟩),
    (.ofPair 20, ⟨"Key", BasicType.string.id, .notNull, .notNull, {}, none, none⟩),
    (.ofPair 20, ⟨"Counts", .ofPair 22, .notNull, .notNull, {}, none, none⟩)]

theorem slots_isolated_warehouse : warehouse.Reached ∧ warehouse.catalog.kind? (.ofPair 19) = some .primary ∧
    ∃ after other views, warehouse.defineFamily (.ofPair 19) stockMembers = some after ∧
      warehouse.defineFamily (.ofPair 19) (stockMembers.filter fun member => member.2.name ≠ "Key") = some other ∧
      after.catalog.fieldViews? (.ofPair 19) = some views ∧
      other.catalog.fieldViews? (.ofPair 19) = some (views.filter fun view => view.name ≠ "Key") ∧
      views.map FieldView.name = ["Counts"] ∧ after.size = 25 := by
  have kind : warehouse.catalog.kind? (.ofPair 19) = some .primary := by decide +kernel
  have isolated := (slots_isolated warehouse_reached (.inr kind) "Key").2 stockMembers (by decide +kernel)
  have shown : ((warehouse.defineFamily (.ofPair 19) stockMembers).map fun after =>
      ((after.catalog.fieldViews? (.ofPair 19)).map (List.map FieldView.name), after.size)) = some (some ["Counts"], 25) := by
    decide +kernel
  obtain ⟨after, defined, same⟩ := Option.map_eq_some_iff.mp shown
  obtain ⟨other, views, stripped, read, read'⟩ := isolated.fields after defined
  rw [read, Option.map_some, Prod.mk.injEq, Option.some.injEq] at same
  exact ⟨warehouse_reached, kind, after, other, views, defined, stripped, read, read', same⟩

/-- An abstraction was declared with an id above it that is still to be given out. -/
def preorders : Builder :=
  Builder.new.replay [.record "Order" false {}, .abstraction "Priced" [.ofPair 21] {}]

def orderMembers : List Member :=
  [⟨"Key", .any, .notNull, .notNull, {}, none, some [BasicType.int.id, BasicType.string.id]⟩,
    ⟨"Total", .ofPair 20, .notNull, .notNull, {}, none, none⟩,
    ⟨"Total", .any, .notNull, .notNull, {}, none, some [BasicType.int.id, BasicType.bool.id]⟩]

/-- Ids that are not registered let slots interfere: without the key, the id above the abstraction is given out to the
union that the total is declared with, and the two declarations of the total no longer disagree. -/
theorem slots_meet_unregistered : preorders.catalog.kind? (.ofPair 19) = some .record ∧
    (∀ member ∈ orderMembers, ∀ ty ∈ member.mentions, preorders.catalog.contains ty = true) ∧
    ((preorders.defineFields (.ofPair 19) orderMembers).map fun after =>
      (after.catalog.fieldViews? (.ofPair 19)).map (List.map FieldView.name)) = some (some ["Key"]) ∧
    ((preorders.defineFields (.ofPair 19) (orderMembers.filter fun member => member.name ≠ "Key")).map fun other =>
      (other.catalog.fieldViews? (.ofPair 19)).map (List.map FieldView.name)) = some (some ["Total"]) := by
  decide +kernel

end Builder
end Interchange
