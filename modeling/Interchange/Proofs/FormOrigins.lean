import Interchange.Proofs.FormLaws
import Mathlib.Data.Fintype.Card
import Mathlib.Data.Fintype.Prod

/-! Where the types of a growing table come from. If each type beyond the first ones was
entered as a form of an earlier type, then it is one of three forms of one of the first. -/

namespace Interchange.Catalog

inductive FormKind where
  | itself
  | oblivious
  | regular
  | both
deriving DecidableEq

instance : Fintype FormKind :=
  ⟨{.itself, .oblivious, .regular, .both}, by intro kind; cases kind <;> decide⟩

/-- The ways to make a type, in any order of its two steps. -/
def HasForm (catalog : Catalog) : FormKind → TypeId → TypeId → Prop
  | .itself, origin, ty => ty = origin
  | .oblivious, origin, ty => Erased catalog origin ty
  | .regular, origin, ty => Regularized catalog origin ty
  | .both, origin, ty => ∃ middle, Erased catalog origin middle ∧ Regularized catalog middle ty ∨
      Regularized catalog origin middle ∧ Erased catalog middle ty

variable {catalog before after : Catalog} {fits : Catalog → Shape → Prop} {kind : FormKind} {origin ty next left right : TypeId}
  {count : Nat}

theorem HasForm.functional (sound : catalog.Sound) (first : HasForm catalog kind origin left)
    (second : HasForm catalog kind origin right) : left = right := by
  cases kind with
  | itself => exact first.trans second.symm
  | oblivious => exact Erased.functional sound first second
  | regular => exact Regularized.functional sound first second
  | both =>
    obtain ⟨one, ⟨erased, regular⟩ | ⟨regular, erased⟩⟩ := first
    · obtain ⟨two, ⟨erased', regular'⟩ | ⟨regular', erased'⟩⟩ := second
      · cases erased.functional sound erased'
        exact regular.functional sound regular'
      · exact regular.functional sound (regular'.erased sound erased erased')
    · obtain ⟨two, ⟨erased', regular'⟩ | ⟨regular', erased'⟩⟩ := second
      · exact (regular.erased sound erased' erased).functional sound regular'
      · cases regular.functional sound regular'
        exact erased.functional sound erased'

/-- A form of a form of a type is a form of the type itself: three forms are all there are. -/
theorem HasForm.step (sound : catalog.Sound) (made : HasForm catalog kind origin ty)
    (step : Erased catalog ty next ∨ Regularized catalog ty next) : ∃ kind, HasForm catalog kind origin next := by
  cases kind with
  | itself =>
    cases made
    rcases step with erased | regular
    · exact ⟨.oblivious, erased⟩
    · exact ⟨.regular, regular⟩
  | oblivious =>
    have made : Erased catalog origin ty := made
    rcases step with erased | regular
    · cases made.stable.functional sound erased
      exact ⟨.oblivious, made⟩
    · exact ⟨.both, ty, .inl ⟨made, regular⟩⟩
  | regular =>
    have made : Regularized catalog origin ty := made
    rcases step with erased | regular
    · exact ⟨.both, ty, .inr ⟨made, erased⟩⟩
    · cases made.stable.functional sound regular
      exact ⟨.regular, made⟩
  | both =>
    -- A type made by both steps is not changed by either of them.
    suffices same : next = ty by exact ⟨.both, same ▸ made⟩
    obtain ⟨middle, ⟨first, second⟩ | ⟨first, second⟩⟩ := made
    · rcases step with erased | regular
      · exact (second.erased sound first.stable erased).functional sound second
      · exact regular.functional sound second.stable
    · rcases step with erased | regular
      · exact erased.functional sound second.stable
      · exact regular.functional sound (first.stable.erased sound second second)

/-- Every type but the first `count` was entered as a form of an earlier one. -/
def Derived (catalog : Catalog) (count : Nat) : Prop :=
  ∀ pair, count ≤ pair → pair < catalog.size → ∃ earlier form : TypeId, earlier.pair < pair ∧ form.pair = pair ∧
    (Erased catalog earlier form ∨ Regularized catalog earlier form)

namespace Derived

theorem initial (catalog : Catalog) : catalog.Derived catalog.size := by
  intro pair beyond inside
  omega

/-- What is derived stays so; what is entered has to be derived, too. -/
theorem later (edits : Edits fits before after) (sound : before.Sound) (derived : before.Derived count)
    (entered : ∀ pair, before.size ≤ pair → pair < after.size → ∃ earlier form : TypeId, earlier.pair < pair ∧
      form.pair = pair ∧ (Erased after earlier form ∨ Regularized after earlier form)) : after.Derived count := by
  intro pair beyond inside
  by_cases old : pair < before.size
  · obtain ⟨earlier, form, smaller, same, erased | regular⟩ := derived pair beyond old
    · exact ⟨earlier, form, smaller, same, .inl (erased.later edits sound)⟩
    · exact ⟨earlier, form, smaller, same, .inr (regular.later edits sound)⟩
  · exact entered pair (by omega) inside

theorem exists_origin (derived : catalog.Derived count) (sound : catalog.Sound) {pair : Nat} (inside : pair < catalog.size) :
    ∃ origin kind ty, origin < count ∧ ty.pair = pair ∧ HasForm catalog kind (.ofPair origin) ty := by
  induction pair using Nat.strongRecOn with
  | ind pair ih =>
    by_cases first : pair < count
    · exact ⟨pair, .itself, .ofPair pair, first, rfl, rfl⟩
    · obtain ⟨earlier, form, smaller, same, step⟩ := derived pair (by omega) inside
      obtain ⟨origin, kind, ty, bound, paired, made⟩ := ih earlier.pair smaller (by omega)
      rcases step with erased | regular
      · obtain ⟨next, moved, erased⟩ := erased.of_pair paired
        obtain ⟨kind, made⟩ := made.step sound (.inl erased)
        exact ⟨origin, kind, next, bound, moved.trans same, made⟩
      · obtain ⟨next, moved, regular⟩ := regular.of_pair paired
        obtain ⟨kind, made⟩ := made.step sound (.inr regular)
        exact ⟨origin, kind, next, bound, moved.trans same, made⟩

/-- A type brings at most three others into the table. -/
theorem size_le (derived : catalog.Derived count) (sound : catalog.Sound) : catalog.size ≤ 4 * count := by
  choose origin kind ty bound paired made using fun pair : Fin catalog.size => derived.exists_origin sound pair.isLt
  let code (pair : Fin catalog.size) : Fin count × FormKind := (⟨origin pair, bound pair⟩, kind pair)
  have separate : Function.Injective code := by
    intro first second same
    have sameOrigin : origin first = origin second := congrArg (fun code => code.1.val) same
    have sameKind : kind first = kind second := congrArg Prod.snd same
    have firstMade := made first
    rw [sameOrigin, sameKind] at firstMade
    apply Fin.ext
    rw [← paired first, ← paired second, firstMade.functional sound (made second)]
  have counted := Fintype.card_le_of_injective code separate
  have four : Fintype.card FormKind = 4 := rfl
  rw [Fintype.card_prod, Fintype.card_fin, Fintype.card_fin, four] at counted
  omega

end Derived
end Interchange.Catalog
