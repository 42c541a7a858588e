import Interchange.Proofs.CatalogStructure
import Interchange.Proofs.FormOrigins
import Interchange.Proofs.LockRetention

/-! The computation of forms. Whatever is recorded is right, nothing recorded is lost, and the
walk over a table that grows on the way comes to its end. -/

namespace Interchange

theorem Shape.isReadOnly_of_outline {before after : Shape} (same : after.outline = before.outline) :
    after.isReadOnly = before.isReadOnly := by
  have outlined (shape : Shape) : shape.outline.isReadOnly = shape.isReadOnly := by cases shape <;> rfl
  rw [← outlined, same, outlined]

namespace Catalog

def isReadOnly (catalog : Catalog) (ty : TypeId) : Bool :=
  (catalog.shape? ty).any Shape.isReadOnly

def policy? (catalog : Catalog) (ty : TypeId) : Option DefaultPolicy :=
  (catalog.entry? ty).bind Entry.policy

/-- The form is in the pair of the type's oblivious form. -/
def IsOblivious (catalog : Catalog) (ty form : TypeId) : Prop :=
  ∃ other, other.pair = form.pair ∧ Erased catalog ty other

/-- The form is in the pair of the type's regular form; read-only types have none. -/
def IsRegular (catalog : Catalog) (ty : TypeId) : Option TypeId → Prop
  | none => catalog.isReadOnly ty = true
  | some form => catalog.isReadOnly ty = false ∧ ∃ other, other.pair = form.pair ∧ Regularized catalog ty other

/-- All forms that have been recorded are right. -/
structure Recorded (catalog : Catalog) : Prop where
  oblivious : ∀ ty form, catalog.obliviousPair? ty = some form → catalog.IsOblivious ty form
  regular : ∀ ty form, catalog.regularPair? ty = some form → catalog.IsRegular ty form

def Regulated (catalog : Catalog) : Prop :=
  ∀ ty form, catalog.regularPair? ty = some form → catalog.IsRegular ty form

structure Settled (catalog : Catalog) (ty : TypeId) : Prop where
  oblivious : (catalog.obliviousPair? ty).isSome = true
  regular : (catalog.regularPair? ty).isSome = true

/-- Forms have been added to a table, and types that are forms. -/
structure Settles (before after : Catalog) : Prop extends Retains before after where
  shapes : ∀ ty shape, before.shape? ty = some shape → after.shape? ty = some shape
  policies : ∀ ty, after.policy? ty = before.policy? ty
  edits : Edits (fun _ _ => True) before after
  oblivious : ∀ ty, (before.obliviousPair? ty).isSome = true → (after.obliviousPair? ty).isSome = true
  regular : ∀ ty, (before.regularPair? ty).isSome = true → (after.regularPair? ty).isSome = true

/-- What holds all the time while forms are computed for a table that started with `count` pairs. -/
structure Forming (count : Nat) (catalog : Catalog) : Prop where
  sound : catalog.Sound
  recorded : catalog.Recorded
  derived : catalog.Derived count

variable {catalog before middle after : Catalog} {fits : Catalog → Shape → Prop} {ty form other : TypeId} {shape : Shape}
  {count : Nat}

namespace Settles

theorem refl (catalog : Catalog) : catalog.Settles catalog :=
  ⟨.refl catalog, fun _ _ found => found, fun _ => rfl, .refl, fun _ known => known, fun _ known => known⟩

theorem trans (first : before.Settles middle) (second : middle.Settles after) : before.Settles after :=
  ⟨first.toRetains.trans second.toRetains, fun ty shape found => second.shapes ty shape (first.shapes ty shape found),
    fun ty => (second.policies ty).trans (first.policies ty), first.edits.trans second.edits,
    fun ty known => second.oblivious ty (first.oblivious ty known), fun ty known => second.regular ty (first.regular ty known)⟩

theorem settled (settles : before.Settles after) (settled : before.Settled ty) : after.Settled ty :=
  ⟨settles.oblivious ty settled.oblivious, settles.regular ty settled.regular⟩

end Settles

theorem Settled.of_pair (settled : catalog.Settled ty) (same : other.pair = ty.pair) : catalog.Settled other := by
  obtain ⟨oblivious, regular⟩ := settled
  simp only [obliviousPair?, regularPair?, ← lookup_of_pair same] at oblivious regular
  exact ⟨oblivious, regular⟩

theorem isReadOnly_of_shape (found : catalog.shape? ty = some shape) : catalog.isReadOnly ty = shape.isReadOnly := by
  simp [isReadOnly, found]

theorem isReadOnly_persists (persists : before.PersistsIn after) (inside : before.contains ty = true) :
    after.isReadOnly ty = before.isReadOnly ty := by
  obtain ⟨shape, found⟩ := shape_of_contains inside
  obtain ⟨later, kept, same⟩ := persists.outline found
  rw [isReadOnly_of_shape kept, isReadOnly_of_shape found, Shape.isReadOnly_of_outline same]

theorem Erased.known (erased : Erased catalog ty form) : catalog.contains ty = true := by
  cases erased with
  | intro found => exact contains_of_shape found

theorem Regularized.known (regular : Regularized catalog ty form) : catalog.contains ty = true := by
  cases regular with
  | keep found | intro found => exact contains_of_shape found

theorem IsOblivious.later (edits : Edits fits before after) (sound : before.Sound) (right : before.IsOblivious ty form) :
    after.IsOblivious ty form := by
  obtain ⟨other, same, erased⟩ := right
  exact ⟨other, same, erased.later edits sound⟩

theorem IsRegular.persists {form : Option TypeId} (persists : before.PersistsIn after) (unique : before.Unique)
    (inside : before.contains ty = true) (right : before.IsRegular ty form) : after.IsRegular ty form := by
  cases form with
  | none => exact (isReadOnly_persists persists inside).trans right
  | some form =>
    obtain ⟨writable, other, same, regular⟩ := right
    exact ⟨(isReadOnly_persists persists inside).trans writable, other, same, regular.persists persists unique⟩

theorem IsRegular.of_pair {form : Option TypeId} (right : catalog.IsRegular ty form) (same : other.pair = ty.pair) :
    catalog.IsRegular other form := by
  have shapes : catalog.isReadOnly other = catalog.isReadOnly ty := by rw [isReadOnly, isReadOnly, shape?_of_pair same]
  cases form with
  | none => exact shapes.trans right
  | some form =>
    obtain ⟨writable, target, paired, regular⟩ := right
    obtain ⟨moved, again, regular⟩ := regular.of_pair same
    exact ⟨shapes.trans writable, moved, again.trans paired, regular⟩

/-- Right records stay right; new ones have to be. -/
theorem Recorded.later (edits : Edits fits before after) (sound : before.Sound) (recorded : before.Recorded)
    (oblivious : ∀ ty form, after.obliviousPair? ty = some form → before.obliviousPair? ty = some form ∨
      after.IsOblivious ty form)
    (regular : ∀ ty form, after.regularPair? ty = some form → before.regularPair? ty = some form ∨ after.IsRegular ty form) :
    after.Recorded := by
  constructor
  · intro ty form found
    rcases oblivious ty form found with old | new
    · exact (recorded.oblivious ty form old).later edits sound
    · exact new
  · intro ty form found
    rcases regular ty form found with old | new
    · obtain ⟨entry, present, -⟩ := Option.bind_eq_some_iff.mp old
      exact (recorded.regular ty form old).persists (.of_edits edits) sound.unique (contains_of_entry present)
    · exact new

/-- The oblivious form of a type is the one that its record tells. -/
theorem Recorded.erased (recorded : catalog.Recorded) (known : (catalog.obliviousPair? ty).isSome = true) :
    Erased catalog ty (catalog.oblivious ty) := by
  obtain ⟨form, found⟩ := Option.isSome_iff_exists.mp known
  obtain ⟨other, same, erased⟩ := recorded.oblivious ty form found
  suffices equal : catalog.oblivious ty = other by rwa [equal]
  cases erased with
  | @intro _ _ shape part present made parts nullable =>
    have value : catalog.isValue form = shape.isValue := by
      rw [isValue, ← shape?_of_pair same, made, Option.any_some, Shape.erase_isValue]
    simp only [Catalog.oblivious, found, Option.getD_some, value]
    cases kept : shape.isValue <;> rw [kept] at nullable <;> exact TypeId.ext_iff_pair.mpr ⟨same.symm, nullable.symm⟩

/-- The regular form of a type is the one that its record tells; without one the type stays as it is. -/
theorem Regulated.regularized (regulated : catalog.Regulated) (known : (catalog.regularPair? ty).isSome = true) :
    Regularized catalog ty ((catalog.regular? ty).getD ty) := by
  obtain ⟨form, found⟩ := Option.isSome_iff_exists.mp known
  have right := regulated ty form found
  simp only [regular?, found, Option.join_some]
  cases form with
  | none =>
    obtain ⟨entry, present, -⟩ := Option.bind_eq_some_iff.mp found
    obtain ⟨shape, shaped⟩ := shape_of_contains (contains_of_entry present)
    exact .keep shaped ((isReadOnly_of_shape shaped).symm.trans right)
  | some form =>
    obtain ⟨writable, other, same, regular⟩ := right
    suffices equal : form.withNullability ty.nullable = other by simpa [equal] using regular
    cases regular with
    | keep shaped readOnly =>
      rw [isReadOnly_of_shape shaped, readOnly] at writable
      cases writable
    | intro _ _ _ _ nullable => exact TypeId.ext_iff_pair.mpr ⟨same.symm, nullable.symm⟩

theorem Recorded.regularized (recorded : catalog.Recorded) (known : (catalog.regularPair? ty).isSome = true) :
    Regularized catalog ty ((catalog.regular? ty).getD ty) :=
  Regulated.regularized recorded.regular known

section Entered

variable {entered : Catalog} (remade : catalog.remake ty shape = (form, entered))

include remade

theorem remake_keeps {other : TypeId} {old : Shape} (found : catalog.shape? other = some old) :
    entered.shape? other = some old := by
  obtain ⟨pair, same⟩ | same := catalog.remake_cases ty shape <;> cases remade.symm.trans same
  · exact found
  · have inside := contains_iff.mp (contains_of_shape found)
    exact (push_shape? _ other).trans ((if_neg (by omega)).trans found)

/-- What a type is remade into brings no forms along. -/
theorem remake_settles (edits : Edits (fun _ _ => True) catalog entered) :
    catalog.Settles entered ∧ (∀ ty, entered.obliviousPair? ty = catalog.obliviousPair? ty) ∧
      ∀ ty, entered.regularPair? ty = catalog.regularPair? ty := by
  have keeps (other : TypeId) (old : Shape) (found : catalog.shape? other = some old) := remake_keeps remade found
  obtain ⟨pair, same⟩ | same := catalog.remake_cases ty shape <;> cases remade.symm.trans same
  · exact ⟨.refl catalog, fun _ => rfl, fun _ => rfl⟩
  · have oblivious (ty : TypeId) : (catalog.push { shape }).2.obliviousPair? ty = catalog.obliviousPair? ty := push_bind rfl ty
    have regular (ty : TypeId) : (catalog.push { shape }).2.regularPair? ty = catalog.regularPair? ty := push_bind rfl ty
    refine ⟨⟨push_retains _, keeps, push_bind rfl, edits, ?_, ?_⟩, oblivious, regular⟩
    · intro ty known
      exact (oblivious ty).symm ▸ known
    · intro ty known
      exact (regular ty).symm ▸ known

/-- What is made of the regular forms of the parts is the regular form. -/
theorem remake_isRegular {old : Shape} (unique : catalog.Unique) (regulated : catalog.Regulated)
    (found : catalog.shape? ty = some old) (writable : old.isReadOnly = false)
    (parts : ∀ part ∈ old.parts, (catalog.regularPair? part).isSome = true)
    (made : shape = old.regularize fun ty => (catalog.regular? ty).getD ty) : entered.IsRegular ty (some form) := by
  subst made
  have persists := PersistsIn.of_remake catalog ty (old.regularize fun ty => (catalog.regular? ty).getD ty)
  have present := remake_shape found (Shape.regularize_remade (fun ty => (catalog.regular? ty).getD ty) old)
  rw [remade] at persists present
  have kept := remake_keeps remade found
  refine ⟨(isReadOnly_of_shape kept).trans writable, ⟨form.pair, ty.nullable⟩, rfl, .intro kept writable present ?_ rfl⟩
  intro part member
  exact (regulated.regularized (parts part member)).persists persists unique

/-- A new pair is the one after the last. -/
theorem remake_pair_of_new {pair : Nat} (beyond : catalog.size ≤ pair) (inside : pair < entered.size) : form.pair = pair := by
  obtain ⟨known, same⟩ | same := catalog.remake_cases ty shape <;> cases remade.symm.trans same
  · omega
  · have last : pair < catalog.size + 1 := @push_size catalog _ ▸ inside
    exact Nat.le_antisymm beyond (Nat.le_of_lt_succ last)

end Entered

theorem setOblivious_obliviousPair? (other : TypeId) : (catalog.setOblivious ty form).obliviousPair? other =
    if ty.pair = other.pair then (catalog.entry? other).map fun _ => form
    else if form.pair = other.pair then (catalog.entry? other).map fun entry => entry.forms.oblivious.getD form
    else catalog.obliviousPair? other := by
  simp only [obliviousPair?, setOblivious, modifyEntry_lookup]
  cases catalog.entry? other with
  | none => simp
  | some entry => by_cases first : ty.pair = other.pair <;> by_cases second : form.pair = other.pair <;> simp [first, second]

theorem setOblivious_regularPair? (other : TypeId) :
    (catalog.setOblivious ty form).regularPair? other = catalog.regularPair? other := by
  rw [regularPair?, Catalog.setOblivious, modifyEntry_bind, modifyEntry_bind]
  · rfl
  · exact fun _ => rfl
  · exact fun _ => rfl

theorem setOblivious_policy? (other : TypeId) : (catalog.setOblivious ty form).policy? other = catalog.policy? other := by
  rw [policy?, Catalog.setOblivious, modifyEntry_bind, modifyEntry_bind]
  · rfl
  · exact fun _ => rfl
  · exact fun _ => rfl

theorem setOblivious_shape? (other : TypeId) : (catalog.setOblivious ty form).shape? other = catalog.shape? other := by
  rw [Catalog.setOblivious, modifyEntry_shape?, modifyEntry_shape?]
  all_goals exact fun _ => rfl

theorem setOblivious_settles (inside : catalog.contains form = true) : catalog.Settles (catalog.setOblivious ty form) := by
  have first : catalog.Retains (catalog.modifyEntry ty fun entry =>
      { entry with forms := { entry.forms with oblivious := some form } }) :=
    modifyEntry_retains fun _ _ => ⟨rfl, rfl, rfl⟩
  refine ⟨first.trans (modifyEntry_retains fun _ _ => ⟨rfl, rfl, rfl⟩), ?_, setOblivious_policy?,
    setOblivious_edits inside, ?_, ?_⟩
  · intro other shape found
    rwa [setOblivious_shape?]
  · intro other known
    obtain ⟨_, found⟩ := Option.isSome_iff_exists.mp known
    obtain ⟨entry, present, -⟩ := Option.bind_eq_some_iff.mp found
    rw [setOblivious_obliviousPair?, present]
    split
    · rfl
    · split
      · rfl
      · exact known
  · intro other known
    rwa [setOblivious_regularPair?]

theorem setRegular_regularPair? {form : Option TypeId} (other : TypeId) : (catalog.setRegular ty form).regularPair? other =
    if ty.pair = other.pair then (catalog.entry? other).map fun _ => form else catalog.regularPair? other := by
  simp only [regularPair?, setRegular, modifyEntry_lookup]
  cases catalog.entry? other with
  | none => simp
  | some entry => by_cases same : ty.pair = other.pair <;> simp [same]

theorem setRegular_obliviousPair? {form : Option TypeId} (other : TypeId) :
    (catalog.setRegular ty form).obliviousPair? other = catalog.obliviousPair? other := by
  rw [obliviousPair?, Catalog.setRegular, modifyEntry_bind]
  · rfl
  · exact fun _ => rfl

theorem setRegular_policy? {form : Option TypeId} (other : TypeId) :
    (catalog.setRegular ty form).policy? other = catalog.policy? other := by
  rw [policy?, Catalog.setRegular, modifyEntry_bind]
  · rfl
  · exact fun _ => rfl

theorem setRegular_shape? {form : Option TypeId} (other : TypeId) :
    (catalog.setRegular ty form).shape? other = catalog.shape? other := by
  rw [Catalog.setRegular, modifyEntry_shape?]
  exact fun _ => rfl

theorem setRegular_settles {form : Option TypeId} (inside : ∀ other ∈ form, catalog.contains other = true) :
    catalog.Settles (catalog.setRegular ty form) := by
  refine ⟨modifyEntry_retains fun _ _ => ⟨rfl, rfl, rfl⟩, ?_, setRegular_policy?, setRegular_edits inside, ?_, ?_⟩
  · intro other shape found
    rwa [setRegular_shape?]
  · intro other known
    rwa [setRegular_obliviousPair?]
  · intro other known
    obtain ⟨_, found⟩ := Option.isSome_iff_exists.mp known
    obtain ⟨entry, present, -⟩ := Option.bind_eq_some_iff.mp found
    rw [setRegular_regularPair?, present]
    split
    · rfl
    · exact known

namespace Forming

/-- Between the entry of a form and its record: whatever was entered is a form of `ty`. -/
theorem enter {entered : Catalog} (forming : Forming count catalog) (remade : catalog.remake ty shape = (form, entered))
    (edits : Edits (fun _ _ => True) catalog entered) (inside : catalog.contains ty = true) (same : other.pair = form.pair)
    (made : Erased entered ty other ∨ Regularized entered ty other) : Forming count entered := by
  obtain ⟨-, oblivious, regular⟩ := remake_settles remade edits
  refine ⟨edits.sound forming.sound, ?_, ?_⟩
  · refine forming.recorded.later edits forming.sound ?_ ?_
    · intro other form found
      exact .inl ((oblivious other).symm.trans found)
    · intro other form found
      exact .inl ((regular other).symm.trans found)
  · refine forming.derived.later edits forming.sound ?_
    intro pair beyond bound
    have last := remake_pair_of_new remade beyond bound
    have earlier : ty.pair < pair := Nat.lt_of_lt_of_le (contains_iff.mp inside) beyond
    exact ⟨ty, other, earlier, same.trans last, made⟩

/-- Nothing is entered when a form is recorded. -/
private theorem record (forming : Forming count before) (settles : before.Settles after) (size : after.size = before.size)
    (oblivious : ∀ ty form, after.obliviousPair? ty = some form → before.obliviousPair? ty = some form ∨
      before.IsOblivious ty form)
    (regular : ∀ ty form, after.regularPair? ty = some form → before.regularPair? ty = some form ∨
      before.contains ty = true ∧ before.IsRegular ty form) : Forming count after := by
  refine ⟨settles.edits.sound forming.sound, ?_, ?_⟩
  · refine forming.recorded.later settles.edits forming.sound ?_ ?_
    · intro other form found
      exact (oblivious other form found).imp_right fun right => right.later settles.edits forming.sound
    · intro other form found
      exact (regular other form found).imp_right fun ⟨inside, right⟩ =>
        right.persists (.of_edits settles.edits) forming.sound.unique inside
  · refine forming.derived.later settles.edits forming.sound ?_
    intro pair beyond bound
    omega

theorem setOblivious (forming : Forming count catalog) (inside : catalog.contains form = true)
    (right : catalog.IsOblivious ty form) : Forming count (catalog.setOblivious ty form) := by
  obtain ⟨target, paired, erased⟩ := right
  refine forming.record (setOblivious_settles inside) (by simp [Catalog.setOblivious]) ?_ ?_
  · intro other found recorded
    rw [setOblivious_obliviousPair?] at recorded
    split at recorded
    next same =>
      obtain ⟨entry, -, rfl⟩ := Option.map_eq_some_iff.mp recorded
      obtain ⟨moved, again, erased⟩ := erased.of_pair same.symm
      exact .inr ⟨moved, again.trans paired, erased⟩
    next =>
      split at recorded
      next same =>
        obtain ⟨entry, present, rfl⟩ := Option.map_eq_some_iff.mp recorded
        cases known : entry.forms.oblivious with
        | some old => exact .inl (by simp [obliviousPair?, present, known])
        | none =>
          -- A form is its own form, for either id of its pair.
          obtain ⟨moved, again, erased⟩ := erased.stable.of_pair (same.symm.trans paired.symm)
          exact .inr ⟨moved, again.trans paired, erased⟩
      next => exact .inl recorded
  · intro other found recorded
    exact .inl ((setOblivious_regularPair? other).symm.trans recorded)

theorem setRegular {form : Option TypeId} (forming : Forming count catalog)
    (known : ∀ other ∈ form, catalog.contains other = true) (right : catalog.IsRegular ty form) :
    Forming count (catalog.setRegular ty form) := by
  refine forming.record (setRegular_settles known) (by simp [Catalog.setRegular]) ?_ ?_
  · intro other found recorded
    exact .inl ((setRegular_obliviousPair? other).symm.trans recorded)
  · intro other found recorded
    rw [setRegular_regularPair?] at recorded
    split at recorded
    next same =>
      obtain ⟨entry, present, rfl⟩ := Option.map_eq_some_iff.mp recorded
      exact .inr ⟨contains_of_entry present, right.of_pair same.symm⟩
    next => exact .inl recorded

/-- One level of the oblivious form, given those of the parts. -/
theorem finishOblivious {entered : Catalog} (forming : Forming count catalog) (found : catalog.shape? ty = some shape)
    (parts : ∀ part ∈ shape.parts, (catalog.obliviousPair? part).isSome = true)
    (remade : catalog.remake ty (shape.erase catalog.oblivious) = (form, entered)) :
    Forming count (entered.setOblivious ty form) ∧ catalog.Settles (entered.setOblivious ty form) ∧
      ((entered.setOblivious ty form).obliviousPair? ty).isSome = true := by
  have edits : Edits (fun _ _ => True) catalog (catalog.remake ty (shape.erase catalog.oblivious)).2 :=
    forming.sound.remake_edits found (Shape.erase_remade _ _) fun _ inside => oblivious_known forming.sound inside
  have made := remake_shape found (Shape.erase_remade catalog.oblivious shape)
  rw [remade] at edits made
  have kept := remake_keeps remade found
  obtain ⟨target, paired, erased⟩ : entered.IsOblivious ty form := by
    refine ⟨⟨form.pair, !shape.isValue || ty.nullable⟩, rfl, .intro kept made ?_ rfl⟩
    exact fun part member => (forming.recorded.erased (parts part member)).later edits forming.sound
  have between := forming.enter remade edits (contains_of_shape found) paired (.inl erased)
  have known := contains_of_shape made
  have settles : catalog.Settles (entered.setOblivious ty form) :=
    (remake_settles remade edits).1.trans (setOblivious_settles known)
  refine ⟨between.setOblivious known ⟨target, paired, erased⟩, settles, ?_⟩
  obtain ⟨entry, present⟩ := entry_of_contains (contains_of_shape kept)
  rw [setOblivious_obliviousPair?, if_pos rfl, present]
  rfl

/-- One level of the regular form, given those of the parts. -/
theorem finishRegular {entered : Catalog} (forming : Forming count catalog) (found : catalog.shape? ty = some shape)
    (writable : shape.isReadOnly = false) (parts : ∀ part ∈ shape.parts, (catalog.regularPair? part).isSome = true)
    (remade : catalog.remake ty (shape.regularize fun ty => (catalog.regular? ty).getD ty) = (form, entered)) :
    Forming count (entered.setRegular ty (some form)) ∧ catalog.Settles (entered.setRegular ty (some form)) ∧
      ((entered.setRegular ty (some form)).regularPair? ty).isSome = true := by
  have edits : Edits (fun _ _ => True) catalog (catalog.remake ty (shape.regularize fun ty => (catalog.regular? ty).getD ty)).2 :=
    forming.sound.remake_edits found (Shape.regularize_remade _ _) fun _ inside => regular_known forming.sound inside
  have made := remake_shape found (Shape.regularize_remade (fun ty => (catalog.regular? ty).getD ty) shape)
  rw [remade] at edits made
  have kept := remake_keeps remade found
  have right := remake_isRegular remade forming.sound.unique forming.recorded.regular found writable parts rfl
  have ⟨_, target, paired, regular⟩ := right
  have between := forming.enter remade edits (contains_of_shape found) paired (.inr regular)
  have known : ∀ other ∈ some form, entered.contains other = true := by
    rintro other ⟨⟩
    exact contains_of_shape made
  have settles : catalog.Settles (entered.setRegular ty (some form)) :=
    (remake_settles remade edits).1.trans (setRegular_settles known)
  refine ⟨between.setRegular known right, settles, ?_⟩
  obtain ⟨entry, present⟩ := entry_of_contains (contains_of_shape kept)
  rw [setRegular_regularPair?, if_pos rfl, present]
  rfl

end Forming

/-- All parts are settled if each can be, in any of the tables that come up on the way. -/
private theorem settleParts {step : Catalog → TypeId → Option Catalog} {known : Catalog → TypeId → Prop} {parts : List TypeId}
    (forming : Forming count catalog)
    (each : ∀ current, ∀ part ∈ parts, Forming count current → catalog.Settles current →
      ∃ next, step current part = some next ∧ Forming count next ∧ current.Settles next ∧ known next part)
    (keeps : ∀ {before after part}, Settles before after → known before part → known after part) :
    ∃ middle, parts.foldlM step catalog = some middle ∧ Forming count middle ∧ catalog.Settles middle ∧
      ∀ part ∈ parts, known middle part := by
  have total : ∃ middle, parts.foldlM step catalog = some middle ∧ Forming count middle ∧ catalog.Settles middle ∧
      ∀ part ∈ parts.reverse, known middle part := by
    refine foldlM_total
      (fun done current => Forming count current ∧ catalog.Settles current ∧ ∀ part ∈ done, known current part)
      ⟨forming, .refl catalog, by simp⟩ ?_
    intro done current part member ⟨forming', settles, settled⟩
    obtain ⟨next, stepped, forming', more, own⟩ := each current part member forming' settles
    refine ⟨next, stepped, forming', settles.trans more, ?_⟩
    intro other listed
    rcases List.mem_cons.mp listed with rfl | listed
    · exact own
    · exact keeps more (settled other listed)
  obtain ⟨middle, folded, forming', settles, settled⟩ := total
  exact ⟨middle, folded, forming', settles, fun part member => settled part (List.mem_reverse.mpr member)⟩

theorem settleOblivious_total {depth : Nat} (forming : Forming count catalog) (inside : catalog.contains ty = true)
    (deep : ty.pair < depth) : ∃ final, settleOblivious depth catalog ty = some final ∧ Forming count final ∧
      catalog.Settles final ∧ (final.obliviousPair? ty).isSome = true := by
  induction depth generalizing catalog ty with
  | zero => omega
  | succ depth ih =>
    obtain ⟨entry, present⟩ := entry_of_contains inside
    have found : catalog.shape? ty = some entry.shape := shape?_eq_some_iff.mpr ⟨entry, present, rfl⟩
    simp only [settleOblivious, present, Option.bind_eq_bind, Option.bind_some]
    split
    next known => exact ⟨catalog, rfl, forming, .refl catalog, by simpa [obliviousPair?, present] using known⟩
    next =>
      have each : ∀ current, ∀ part ∈ entry.shape.parts, Forming count current → catalog.Settles current →
          ∃ next, settleOblivious depth current part = some next ∧ Forming count next ∧ current.Settles next ∧
            (next.obliviousPair? part).isSome = true := by
        intro current part member forming' settles
        have older := parts_older forming.sound found part member
        apply ih forming' _ (by omega)
        exact settles.edits.contains (contains_iff.mpr (Nat.lt_trans older (contains_iff.mp inside)))
      obtain ⟨middle, folded, forming', settles, settled⟩ := settleParts forming each fun settles => settles.oblivious _
      have kept := shape_after_parts present folded settles.edits.outline
      cases remade : middle.remake ty (entry.shape.erase middle.oblivious) with
      | mk form entered =>
        obtain ⟨last, more, own⟩ := forming'.finishOblivious kept settled remade
        exact ⟨entered.setOblivious ty form, by simp [folded, remade], last, settles.trans more, own⟩

theorem settleRegular_total {depth : Nat} (forming : Forming count catalog) (inside : catalog.contains ty = true)
    (deep : ty.pair < depth) : ∃ final, settleRegular depth catalog ty = some final ∧ Forming count final ∧
      catalog.Settles final ∧ (final.regularPair? ty).isSome = true := by
  induction depth generalizing catalog ty with
  | zero => omega
  | succ depth ih =>
    obtain ⟨entry, present⟩ := entry_of_contains inside
    have found : catalog.shape? ty = some entry.shape := shape?_eq_some_iff.mpr ⟨entry, present, rfl⟩
    simp only [settleRegular, present, Option.bind_eq_bind, Option.bind_some]
    split
    next known => exact ⟨catalog, rfl, forming, .refl catalog, by simpa [regularPair?, present] using known⟩
    next =>
      split
      next readOnly =>
        have vacuous : ∀ other ∈ (none : Option TypeId), catalog.contains other = true := by simp
        refine ⟨catalog.setRegular ty none, rfl, forming.setRegular vacuous ((isReadOnly_of_shape found).trans readOnly),
          setRegular_settles vacuous, ?_⟩
        rw [setRegular_regularPair?, if_pos rfl, present]
        rfl
      next writable =>
        have each : ∀ current, ∀ part ∈ entry.shape.parts, Forming count current → catalog.Settles current →
            ∃ next, settleRegular depth current part = some next ∧ Forming count next ∧ current.Settles next ∧
              (next.regularPair? part).isSome = true := by
          intro current part member forming' settles
          have older := parts_older forming.sound found part member
          apply ih forming' _ (by omega)
          exact settles.edits.contains (contains_iff.mpr (Nat.lt_trans older (contains_iff.mp inside)))
        obtain ⟨middle, folded, forming', settles, settled⟩ := settleParts forming each fun settles => settles.regular _
        have kept := shape_after_parts present folded settles.edits.outline
        cases remade : middle.remake ty (entry.shape.regularize fun ty => (middle.regular? ty).getD ty) with
        | mk form entered =>
          obtain ⟨last, more, own⟩ := forming'.finishRegular kept (by simpa using writable) settled remade
          exact ⟨entered.setRegular ty (some form), by simp [folded, remade], last, settles.trans more, own⟩

/-- The walk ends: at no time are there more than four pairs for each of the first ones. -/
theorem settleFrom_total {fuel pair : Nat} (forming : Forming count catalog) (bound : pair ≤ catalog.size)
    (settled : ∀ ty, ty.pair < pair → catalog.Settled ty) (enough : 4 * count < fuel + pair) :
    ∃ final, settleFrom fuel pair catalog = some final ∧ Forming count final ∧ catalog.Settles final ∧
      ∀ ty, final.contains ty = true → final.Settled ty := by
  induction fuel generalizing pair catalog with
  | zero =>
    have small := forming.derived.size_le forming.sound
    omega
  | succ fuel ih =>
    by_cases more : pair < catalog.size
    · have inside : catalog.contains (.ofPair pair) = true := contains_iff.mpr more
      obtain ⟨first, oblivious, forming', settles, known⟩ :=
        @settleOblivious_total catalog (.ofPair pair) count (catalog.size + 1) forming inside (Nat.lt_succ_of_lt more)
      have kept := settles.edits.contains inside
      obtain ⟨second, regular, forming', settles', own⟩ :=
        @settleRegular_total first (.ofPair pair) count (first.size + 1) forming' kept (Nat.lt_succ_of_lt (contains_iff.mp kept))
      have both := settles.trans settles'
      have progress : ∀ ty, ty.pair < pair + 1 → second.Settled ty := by
        intro ty earlier
        by_cases same : ty.pair = pair
        · have here : second.Settled (.ofPair pair) := ⟨settles'.oblivious _ known, own⟩
          exact here.of_pair same
        · exact both.settled (settled ty (by omega))
      have room : pair + 1 ≤ second.size := contains_iff.mp (both.edits.contains inside)
      obtain ⟨final, rest, last, settles', complete⟩ := ih forming' room progress (by omega)
      exact ⟨final, by simp [settleFrom, more, oblivious, regular, rest], last, both.trans settles', complete⟩
    · refine ⟨catalog, by simp [settleFrom, more], forming, .refl catalog, ?_⟩
      intro ty inside
      exact settled ty (Nat.lt_of_lt_of_le (contains_iff.mp inside) (Nat.le_of_not_lt more))

/-- A sound table gets all of its forms, if those it has are right. -/
theorem withForms_total (sound : catalog.Sound) (recorded : catalog.Recorded) :
    ∃ final, catalog.withForms? = some final ∧ Forming catalog.size final ∧ catalog.Settles final ∧
      ∀ ty, final.contains ty = true → final.Settled ty := by
  have nonempty := contains_iff.mp (contains_of_shape sound.any)
  exact settleFrom_total ⟨sound, recorded, .initial catalog⟩ (Nat.zero_le _) (fun ty earlier => absurd earlier (Nat.not_lt_zero _))
    (by omega)

end Catalog
end Interchange
