import Interchange.Proofs.FormSettling

/-! Regular forms after any history. Whatever ids were handed over, a table that can be locked at all has the right regular
form of every type, and its types are told apart by their identities. -/

namespace Interchange

namespace Catalog

variable {catalog final : Catalog} {ty other : TypeId} {shape : Shape}

theorem remake_regularPair? (shape : Shape) (other : TypeId) :
    (catalog.remake ty shape).2.regularPair? other = catalog.regularPair? other := by
  obtain ⟨pair, same⟩ | same := catalog.remake_cases ty shape
  · rw [same]
  · rw [same]
    exact push_bind rfl other

/-- Records that are kept stay right. -/
theorem Regulated.kept (regulated : catalog.Regulated) (persists : catalog.PersistsIn final) (unique : catalog.Unique)
    (same : ∀ ty, final.regularPair? ty = catalog.regularPair? ty) : final.Regulated := by
  intro ty form found
  rw [same] at found
  obtain ⟨entry, present, -⟩ := Option.bind_eq_some_iff.mp found
  exact (regulated ty form found).persists persists unique (contains_of_entry present)

theorem Regulated.setRegular {form : Option TypeId} (regulated : catalog.Regulated) (unique : catalog.Unique)
    (right : catalog.IsRegular ty form) : (catalog.setRegular ty form).Regulated := by
  intro other record found
  rw [setRegular_regularPair?] at found
  split at found
  next same =>
    obtain ⟨entry, present, rfl⟩ := Option.map_eq_some_iff.mp found
    exact (right.of_pair same.symm).persists setRegular_persists unique (contains_of_entry present)
  next =>
    obtain ⟨entry, present, -⟩ := Option.bind_eq_some_iff.mp found
    exact (regulated other record found).persists setRegular_persists unique (contains_of_entry present)

theorem setRegular_known {form : Option TypeId} (inside : catalog.contains ty = true) :
    ((catalog.setRegular ty form).regularPair? ty).isSome = true := by
  obtain ⟨entry, present⟩ := entry_of_contains inside
  rw [setRegular_regularPair?, if_pos rfl, present]
  rfl

theorem setRegular_keeps {form : Option TypeId} (known : (catalog.regularPair? other).isSome = true) :
    ((catalog.setRegular ty form).regularPair? other).isSome = true := by
  obtain ⟨record, found⟩ := Option.isSome_iff_exists.mp known
  obtain ⟨entry, present, -⟩ := Option.bind_eq_some_iff.mp found
  rw [setRegular_regularPair?, present]
  split
  · rfl
  · exact known

theorem settleOblivious_regularPair? {depth : Nat} (settled : settleOblivious depth catalog ty = some final) (other : TypeId) :
    final.regularPair? other = catalog.regularPair? other := by
  induction depth generalizing catalog ty final with
  | zero => cases settled
  | succ depth ih =>
    simp only [settleOblivious, Option.bind_eq_bind, Option.bind_eq_some_iff] at settled
    obtain ⟨entry, -, settled⟩ := settled
    split at settled
    · cases settled
      rfl
    · obtain ⟨middle, folded, settled⟩ := Option.bind_eq_some_iff.mp settled
      cases settled
      have parts : middle.regularPair? other = catalog.regularPair? other :=
        foldlM_holds (fun _ current => current.regularPair? other = catalog.regularPair? other) rfl
          (fun _ _ _ _ _ earlier stepped => (ih stepped).trans earlier) folded
      rw [setOblivious_regularPair?, remake_regularPair?, parts]

structure Regulates (before after : Catalog) (ty : TypeId) : Prop where
  regulated : after.Regulated
  keeps : ∀ other, (before.regularPair? other).isSome = true → (after.regularPair? other).isSome = true
  known : (after.regularPair? ty).isSome = true

/-- One type after the other; those that are done keep their records while the others are worked on. -/
theorem foldlM_regulates {step : Catalog → TypeId → Option Catalog} {parts : List TypeId} (unique : catalog.Unique)
    (regulated : catalog.Regulated) (folded : parts.foldlM step catalog = some final)
    (each : ∀ current part next, current.Unique → current.Regulated → step current part = some next →
      current.PersistsIn next ∧ current.Regulates next part) :
    catalog.PersistsIn final ∧ final.Regulated ∧
      (∀ other, (catalog.regularPair? other).isSome = true → (final.regularPair? other).isSome = true) ∧
      ∀ part ∈ parts, (final.regularPair? part).isSome = true := by
  simp only [← @List.mem_reverse _ _ parts]
  refine foldlM_holds (fun done current => catalog.PersistsIn current ∧ current.Regulated ∧
    (∀ other, (catalog.regularPair? other).isSome = true → (current.regularPair? other).isSome = true) ∧
    ∀ part ∈ done, (current.regularPair? part).isSome = true) ⟨.refl _, regulated, fun _ known => known, by simp⟩ ?_ folded
  rintro done current part next - ⟨persists, regulated', keeps, earlier⟩ stepped
  obtain ⟨further, regulates⟩ := each current part next (persists.unique unique) regulated' stepped
  refine ⟨persists.trans further, regulates.regulated, fun other known => regulates.keeps other (keeps other known), ?_⟩
  intro other member
  rcases List.mem_cons.mp member with rfl | member
  · exact regulates.known
  · exact regulates.keeps other (earlier other member)

theorem settleRegular_regulates {depth : Nat} (unique : catalog.Unique) (regulated : catalog.Regulated)
    (settled : settleRegular depth catalog ty = some final) : catalog.Regulates final ty := by
  induction depth generalizing catalog ty final with
  | zero => cases settled
  | succ depth ih =>
    simp only [settleRegular, Option.bind_eq_bind, Option.bind_eq_some_iff] at settled
    obtain ⟨entry, present, settled⟩ := settled
    have found : catalog.shape? ty = some entry.shape := shape?_eq_some_iff.mpr ⟨entry, present, rfl⟩
    split at settled
    next known =>
      cases settled
      exact ⟨regulated, fun _ known => known, by simpa [regularPair?, present] using known⟩
    next =>
      split at settled
      next readOnly =>
        cases settled
        exact ⟨regulated.setRegular unique ((isReadOnly_of_shape found).trans readOnly), fun _ => setRegular_keeps,
          setRegular_known (contains_of_entry present)⟩
      next writable =>
        obtain ⟨middle, folded, settled⟩ := Option.bind_eq_some_iff.mp settled
        cases settled
        obtain ⟨persists, regulated', keeps, done⟩ := foldlM_regulates unique regulated folded
          fun _ _ _ unique regulated stepped => ⟨settleRegular_persists stepped, ih unique regulated stepped⟩
        have kept := shape_after_parts present folded persists.outline
        have entered := PersistsIn.of_remake middle ty (entry.shape.regularize fun ty => (middle.regular? ty).getD ty)
        have unique' := persists.unique unique
        have right := remake_isRegular rfl unique' regulated' kept (by simpa using writable) done rfl
        refine ⟨(regulated'.kept entered unique' (remake_regularPair? _)).setRegular (entered.unique unique') right, ?_, ?_⟩
        · intro other known
          apply setRegular_keeps
          rw [remake_regularPair?]
          exact keeps other known
        · exact setRegular_known (contains_of_shape (remake_keeps rfl kept))

theorem settleFrom_regulated {fuel pair : Nat} (unique : catalog.Unique) (regulated : catalog.Regulated)
    (settled : settleFrom fuel pair catalog = some final) : final.Regulated := by
  induction fuel generalizing pair catalog with
  | zero => cases settled
  | succ fuel ih =>
    simp only [settleFrom] at settled
    split at settled
    · obtain ⟨first, oblivious, settled⟩ := Option.bind_eq_some_iff.mp settled
      obtain ⟨second, regular, settled⟩ := Option.bind_eq_some_iff.mp settled
      have one := settleOblivious_persists oblivious
      have two := settleRegular_persists regular
      have unique' := one.unique unique
      have between := regulated.kept one unique (settleOblivious_regularPair? oblivious)
      exact ih (two.unique unique') (settleRegular_regulates unique' between regular).regulated settled
    · cases settled
      exact regulated

theorem withAllowed_regularPair? (filled : catalog.withAllowed? = some final) (other : TypeId) :
    final.regularPair? other = catalog.regularPair? other := by
  refine foldlM_holds (fun _ current => current.regularPair? other = catalog.regularPair? other) rfl ?_ filled
  intro _ current family next _ earlier stepped
  split at stepped
  · obtain ⟨families, -, rfl⟩ := Option.map_eq_some_iff.mp stepped
    exact ((allow_amends family families).regular other).trans earlier
  · cases stepped
    exact earlier

theorem PolicySteps.regularPair? (steps : PolicySteps catalog final) (other : TypeId) :
    final.regularPair? other = catalog.regularPair? other := by
  induction steps with
  | refl => rfl
  | tail _ step ih =>
    rw [← ih]
    cases step with
    | fields ty policies =>
      rw [Catalog.regularPair?, setFieldPolicies, modifyShape, modifyEntry_bind]
      · rfl
      · exact fun _ => rfl
    | own ty policy =>
      rw [Catalog.regularPair?, settlePolicy, modifyEntry_bind]
      · rfl
      · exact fun _ => rfl

theorem Draft.regulated (draft : catalog.Draft) : catalog.Regulated := by
  intro ty form found
  obtain ⟨entry, present, known⟩ := Option.bind_eq_some_iff.mp found
  rw [(draft entry (Array.mem_of_getElem? present)).forms] at known
  cases known

end Catalog

namespace System.Locked

open Catalog

variable {system : System} {ty form : TypeId}

theorem persists (locked : system.Locked) : Catalog.standard.PersistsIn system.catalog := by
  obtain ⟨builder, diagnostics, reached, locked⟩ := locked
  exact reached.persists.trans (Builder.lock_persists locked)

theorem unique (locked : system.Locked) : system.catalog.Unique :=
  locked.persists.unique standard_sound.unique

theorem basic (locked : system.Locked) (type : BasicType) : system.shape? type.id = some (.basic type) :=
  locked.persists.anonymous (standard_sound.basics type) rfl

theorem regulated (locked : system.Locked) : system.catalog.Regulated := by
  obtain ⟨builder, diagnostics, reached, locked⟩ := locked
  have unique := reached.persists.unique standard_sound.unique
  simp only [Builder.lock, Option.bind_eq_bind, Option.bind_eq_some_iff] at locked
  obtain ⟨allowed, filled, formed, settled, final, policies, locked⟩ := locked
  cases locked
  have filling : builder.catalog.PersistsIn allowed := .of_edits (@withAllowed_edits _ _ (fun _ _ => True) filled)
  have judging : formed.PersistsIn final := .of_edits (@PolicySteps.edits _ _ (fun _ _ => True) (withPolicies_steps policies))
  have start := reached.draft.regulated.kept filling unique (withAllowed_regularPair? filled)
  have forms := settleFrom_regulated (filling.unique unique) start settled
  exact forms.kept judging ((settleFrom_persists settled).unique (filling.unique unique)) (withPolicies_steps policies).regularPair?

/-- The regular form that a system gives is the one that its definition admits. -/
theorem regularized (locked : system.Locked) (regular : system.regular? ty = some form) : Regularized system.catalog ty form := by
  obtain ⟨pair, found, -⟩ := Option.map_eq_some_iff.mp regular
  have known : (system.catalog.regularPair? ty).isSome = true := by
    rw [Option.join_eq_some_iff.mp found]
    rfl
  have made := locked.regulated.regularized known
  rwa [show system.catalog.regular? ty = some form from regular] at made

end System.Locked
end Interchange
