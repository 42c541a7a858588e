import Interchange.Proofs.InterfaceDerivation

/-! The order of types by compatibility, and what it says about shapes. Collections are
compared item by item, interfaces by derivation; everything else is comparable with
itself and with the universal type only. -/

namespace Interchange

@[grind =] def Shape.isInterface : Shape → Bool
  | .primary .. | .secondary .. | .abstraction .. => true
  | _ => false

namespace Family

variable {family : Family} {item other : TypeId} {form : CollectionForm}

@[simp, grind .] theorem shape_ne_any : family.shape item form ≠ .any := by
  cases family <;> nofun

@[simp, grind .] theorem shape_ne_array : family.shape item form ≠ .array other := by
  cases family <;> nofun

@[simp, grind =] theorem shape_isInterface : (family.shape item form).isInterface = false := by
  cases family <;> rfl

end Family

namespace Catalog

inductive Below (catalog : Catalog) : TypeId → TypeId → Prop where
  | refl (ty : TypeId) : Below catalog ty ty
  | trans {lower middle upper : TypeId} (first : Below catalog lower middle) (second : Below catalog middle upper) :
      Below catalog lower upper
  | orNull (ty : TypeId) : Below catalog ty ty.orNull
  | any {ty : TypeId} (plain : ty.nullable = false) : Below catalog ty .any
  | anyOrNull (ty : TypeId) : Below catalog ty TypeId.any.orNull
  | lift {lower upper : TypeId} (below : Below catalog lower upper) : Below catalog lower.orNull upper.orNull
  | array {array list item : TypeId} (lower : catalog.shape? array = some (.array item))
      (upper : catalog.shape? list = some (.list item .readOnly)) : Below catalog array.nonNull list.nonNull
  | covariant {lower upper item bound : TypeId} {family : Family} {form wider : CollectionForm}
      (lowerFound : catalog.shape? lower = some (family.shape item form))
      (upperFound : catalog.shape? upper = some (family.shape bound wider))
      (items : Below catalog item bound) (forms : form = wider ∨ form = .concrete) :
      Below catalog lower.nonNull upper.nonNull
  | secondary {ty head : TypeId} {name : Symbol} (found : catalog.shape? ty = some (.secondary name head)) :
      Below catalog ty.nonNull head.nonNull
  | primary {ty head : TypeId} {name : Symbol} (found : catalog.shape? ty = some (.secondary name head)) :
      Below catalog head.nonNull ty.nonNull
  | derived {ty above : TypeId} {shape : Shape} (found : catalog.shape? ty = some shape) (member : above ∈ shape.parents) :
      Below catalog ty.nonNull above.nonNull

variable {catalog : Catalog} {lower middle upper ty : TypeId} {shape : Shape}

theorem Below.nonNull (below : Below catalog lower upper) : Below catalog lower.nonNull upper.nonNull := by
  induction below with
  | refl ty => exact .refl _
  | trans first second ih ih' => exact .trans ih ih'
  | orNull ty => exact .refl _
  | any plain => exact .any rfl
  | anyOrNull ty => exact .any rfl
  | lift below ih => exact ih
  | array lowerFound upperFound => exact .array lowerFound upperFound
  | covariant lowerFound upperFound items forms => exact .covariant lowerFound upperFound items forms
  | secondary found =>
    have step := Below.secondary found
    exact step
  | primary found =>
    have step := Below.primary found
    exact step
  | derived found member =>
    have step := Below.derived found member
    exact step

/-- Nothing that may be absent is below what may not. -/
theorem Below.nullable (below : Below catalog lower upper) (absent : lower.nullable = true) : upper.nullable = true := by
  induction below with
  | refl => exact absent
  | trans first second ih ih' => exact ih' (ih absent)
  | orNull | anyOrNull | lift => rfl
  | any plain =>
    rw [plain] at absent
    cases absent
  | array | covariant | secondary | primary | derived => cases absent

theorem Below.plain (below : Below catalog lower upper) (plain : upper.nullable = false) : lower.nullable = false := by
  cases absent : lower.nullable with
  | false => rfl
  | true =>
    rw [below.nullable absent] at plain
    cases plain

theorem Below.of_nonNull (below : Below catalog lower.nonNull upper.nonNull)
    (absent : lower.nullable = true → upper.nullable = true) : Below catalog lower upper := by
  obtain ⟨lower, lowerNullable⟩ := lower
  obtain ⟨upper, upperNullable⟩ := upper
  cases lowerNullable with
  | true =>
    cases absent rfl
    exact .lift below
  | false =>
    cases upperNullable with
    | true => exact .trans below (.orNull _)
    | false => exact below

inductive Ordered (catalog : Catalog) (lower upper : TypeId) : Prop where
  | same (same : lower.pair = upper.pair)
  | any (universal : upper.pair = 0)
  | array {item bound list : TypeId} (lowerFound : catalog.shape? lower = some (.array item))
      (list : catalog.shape? list = some (.list item .readOnly))
      (upperFound : catalog.shape? upper = some (.list bound .readOnly)) (items : Below catalog item bound)
  | collection {item bound : TypeId} {family : Family} {form wider : CollectionForm}
      (lowerFound : catalog.shape? lower = some (family.shape item form))
      (upperFound : catalog.shape? upper = some (family.shape bound wider))
      (items : Below catalog item bound) (forms : form = wider ∨ form = .concrete)
  | interfaces {lowerShape upperShape : Shape} (lowerFound : catalog.shape? lower = some lowerShape)
      (upperFound : catalog.shape? upper = some upperShape) (lowerKind : lowerShape.isInterface = true)
      (upperKind : upperShape.isInterface = true)
      (derives : Derives catalog (lowerShape.family lower.nonNull) (upperShape.family upper.nonNull))

namespace Ordered

theorem trans (sound : catalog.Sound) (first : Ordered catalog lower middle) (second : Ordered catalog middle upper) :
    Ordered catalog lower upper := by
  cases first with
  | same same =>
    cases second with
    | same again => exact .same (same.trans again)
    | any universal => exact .any universal
    | array found list upperFound items => exact .array (shape?_of_pair same ▸ found) list upperFound items
    | collection found upperFound items forms => exact .collection (shape?_of_pair same ▸ found) upperFound items forms
    | interfaces found upperFound lowerKind upperKind derives =>
      have bare : lower.nonNull = middle.nonNull := TypeId.ext_iff_pair.mpr ⟨same, rfl⟩
      exact .interfaces (shape?_of_pair same ▸ found) upperFound lowerKind upperKind (bare ▸ derives)
  | any universal =>
    have found := sound.universal universal
    cases second with
    | same again => exact .any (again.symm.trans universal)
    | any universal => exact .any universal
    | array | collection | interfaces => grind
  | array lowerFound list found items =>
    cases second with
    | same again => exact .array lowerFound list (shape?_of_pair again ▸ found) items
    | any universal => exact .any universal
    | array | interfaces => grind
    | @collection item bound family form wider other upperFound above forms =>
      rw [found] at other
      cases family <;> cases other
      rcases forms with rfl | none
      · exact .array lowerFound list upperFound (.trans items above)
      · cases none
  | @collection item bound family form wider lowerFound found items forms =>
    cases second with
    | same again => exact .collection lowerFound (shape?_of_pair again ▸ found) items forms
    | any universal => exact .any universal
    | array | interfaces => grind
    | @collection item' bound' family' form' wider' other upperFound above wide =>
      rw [found] at other
      obtain ⟨rfl, rfl, rfl⟩ := Family.shape_inj (Option.some.inj other)
      refine .collection lowerFound upperFound (.trans items above) ?_
      rcases forms with rfl | concrete
      · exact wide
      · exact .inr concrete
  | interfaces lowerFound found lowerKind kind derives =>
    cases second with
    | same again =>
      have bare : upper.nonNull = middle.nonNull := TypeId.ext_iff_pair.mpr ⟨again.symm, rfl⟩
      exact .interfaces lowerFound (shape?_of_pair again ▸ found) lowerKind kind (bare ▸ derives)
    | any universal => exact .any universal
    | array | collection => grind
    | interfaces other upperFound _ upperKind higher =>
      rw [found] at other
      cases other
      exact .interfaces lowerFound upperFound lowerKind upperKind (derives.trans higher)

end Ordered

/-- The order is decided by shapes. -/
theorem Below.ordered (sound : catalog.Sound) (hierarchical : catalog.Hierarchical) (below : Below catalog lower upper) :
    Ordered catalog lower upper := by
  induction below with
  | refl ty => exact .same rfl
  | trans first second ih ih' => exact ih.trans sound ih'
  | orNull ty => exact .same rfl
  | any plain => exact .any rfl
  | anyOrNull ty => exact .any rfl
  | @lift lower upper below ih =>
    have first : Ordered catalog lower.orNull lower := .same rfl
    have last : Ordered catalog upper upper.orNull := .same rfl
    exact first.trans sound (ih.trans sound last)
  | array lowerFound upperFound => exact .array lowerFound upperFound upperFound (.refl _)
  | covariant lowerFound upperFound items forms => exact .collection lowerFound upperFound items forms
  | @secondary ty head name found =>
    obtain ⟨headShape, headFound, kind⟩ := shape_of_kind (hierarchical ty _ found)
    cases headShape <;> cases kind
    have plain := sound.plain ty _ found head (by simp [Shape.lineage])
    refine .interfaces found headFound rfl rfl ?_
    simp only [Shape.family, TypeId.nonNull_of_plain plain]
    exact .refl
  | @primary ty head name found =>
    obtain ⟨headShape, headFound, kind⟩ := shape_of_kind (hierarchical ty _ found)
    cases headShape <;> cases kind
    have plain := sound.plain ty _ found head (by simp [Shape.lineage])
    refine .interfaces headFound found rfl rfl ?_
    simp only [Shape.family, TypeId.nonNull_of_plain plain]
    exact .refl
  | @derived ty above shape found member =>
    obtain ⟨name, generalizations, allowed, aboveFound⟩ := parent_abstraction hierarchical found member
    have plain := parent_plain sound found member
    have step : Derives catalog ty.nonNull above.nonNull :=
      .single ⟨shape, found, (TypeId.nonNull_of_plain plain).symm ▸ member⟩
    cases shape with
    | primary | abstraction => exact .interfaces found aboveFound rfl rfl step
    | _ => cases member

end Catalog
end Interchange
