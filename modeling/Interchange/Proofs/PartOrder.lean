import Interchange.Proofs.CatalogIdentity
import Interchange.Proofs.NameSlots

/-! Parts come first. A type is entered after all that it is made of, in the table of a builder and in that of the
locked system; so every recursion over parts ends, whatever is remembered on the way. -/

namespace Interchange

namespace Catalog

/-- What a type stands on is older than the type. -/
def Founded (catalog : Catalog) : Prop :=
  ∀ ty shape, catalog.shape? ty = some shape → ∀ part ∈ shape.foundation, part.pair < ty.pair

/-- Every type is shown, and written out alike with any number of levels beyond its pair. -/
def DisplayEnds (catalog : Catalog) : Prop :=
  ∀ ty, catalog.contains ty = true → ∃ unfolded, catalog.display? ty = some unfolded.text ∧
    ∀ depth, ty.pair < depth → catalog.unfoldWithin depth ty = some unfolded

/-- The forms of every type are computed alike with any number of levels beyond its pair. -/
def FormsEnd (catalog : Catalog) : Prop :=
  ∀ ty, catalog.contains ty = true →
    (∃ after, ∀ depth, ty.pair < depth → settleOblivious depth catalog ty = some after) ∧
    ∃ after, ∀ depth, ty.pair < depth → settleRegular depth catalog ty = some after

/-- A table that comes up while forms are computed, in whatever order and with however many levels. -/
inductive Formed (start : Catalog) : Catalog → Prop where
  | start : Formed start start
  | oblivious {before after : Catalog} {ty : TypeId} {depth : Nat} (formed : Formed start before)
      (inside : before.contains ty = true) (settled : settleOblivious depth before ty = some after) : Formed start after
  | regular {before after : Catalog} {ty : TypeId} {depth : Nat} (formed : Formed start before)
      (inside : before.contains ty = true) (settled : settleRegular depth before ty = some after) : Formed start after

variable {catalog start final : Catalog} {ty : TypeId} {depth more count : Nat}

theorem Sound.displayEnds (sound : catalog.Sound) : catalog.DisplayEnds := by
  intro ty inside
  have known : ty.pair < catalog.size + 1 := Nat.lt_succ_of_lt (contains_iff.mp inside)
  obtain ⟨unfolded, answer⟩ := Option.isSome_iff_exists.mp (unfoldWithin_isSome sound inside known)
  refine ⟨unfolded, by simp [display?, unfolded?, answer], ?_⟩
  intro depth deep
  rw [← answer]
  exact unfoldWithin_congr (fun _ _ found => found) (fun _ _ _ _ _ => rfl) (fun _ _ found => parts_older sound found) inside
    known deep

theorem foldlM_deeper {step further : Catalog → TypeId → Option Catalog} {types : List TypeId}
    (each : ∀ catalog ty final, step catalog ty = some final → further catalog ty = some final)
    (folded : types.foldlM step catalog = some final) : types.foldlM further catalog = some final := by
  induction types generalizing catalog with
  | nil => exact folded
  | cons ty rest ih =>
    obtain ⟨next, stepped, folded⟩ := Option.bind_eq_some_iff.mp folded
    rw [List.foldlM_cons, each catalog ty next stepped]
    exact ih folded

/-- An answer stays when more levels are allowed. -/
theorem settleOblivious_deeper (settled : settleOblivious depth catalog ty = some final) (deeper : depth ≤ more) :
    settleOblivious more catalog ty = some final := by
  induction depth generalizing more catalog ty final with
  | zero => cases settled
  | succ depth ih =>
    cases more with
    | zero => omega
    | succ more =>
      simp only [settleOblivious, Option.bind_eq_bind] at settled ⊢
      obtain ⟨entry, present, settled⟩ := Option.bind_eq_some_iff.mp settled
      rw [present, Option.bind_some]
      split at settled
      next known => simpa [known] using settled
      next unknown =>
        obtain ⟨middle, folded, settled⟩ := Option.bind_eq_some_iff.mp settled
        rw [if_neg unknown, foldlM_deeper (fun _ _ _ answer => ih answer (by omega)) folded]
        exact settled

theorem settleRegular_deeper (settled : settleRegular depth catalog ty = some final) (deeper : depth ≤ more) :
    settleRegular more catalog ty = some final := by
  induction depth generalizing more catalog ty final with
  | zero => cases settled
  | succ depth ih =>
    cases more with
    | zero => omega
    | succ more =>
      simp only [settleRegular, Option.bind_eq_bind] at settled ⊢
      obtain ⟨entry, present, settled⟩ := Option.bind_eq_some_iff.mp settled
      rw [present, Option.bind_some]
      split at settled
      next known => simpa [known] using settled
      next unknown =>
        split at settled
        next readOnly => simpa [unknown, readOnly] using settled
        next writable =>
          obtain ⟨middle, folded, settled⟩ := Option.bind_eq_some_iff.mp settled
          rw [if_neg unknown, if_neg writable, foldlM_deeper (fun _ _ _ answer => ih answer (by omega)) folded]
          exact settled

theorem Forming.formsEnd (forming : Forming count catalog) : catalog.FormsEnd := by
  intro ty inside
  constructor
  · obtain ⟨after, settled, -⟩ := settleOblivious_total forming inside (Nat.lt_succ_self ty.pair)
    exact ⟨after, fun depth deep => settleOblivious_deeper settled deep⟩
  · obtain ⟨after, settled, -⟩ := settleRegular_total forming inside (Nat.lt_succ_self ty.pair)
    exact ⟨after, fun depth deep => settleRegular_deeper settled deep⟩

namespace Formed

theorem forming (formed : Formed start catalog) (initial : Forming count start) : Forming count catalog := by
  induction formed with
  | start => exact initial
  | @oblivious before after ty depth _ inside settled ih =>
    have enough : ty.pair < max depth (ty.pair + 1) := by omega
    obtain ⟨other, again, forming, -⟩ := settleOblivious_total ih inside enough
    cases again.symm.trans (settleOblivious_deeper settled (by omega))
    exact forming
  | @regular before after ty depth _ inside settled ih =>
    have enough : ty.pair < max depth (ty.pair + 1) := by omega
    obtain ⟨other, again, forming, -⟩ := settleRegular_total ih inside enough
    cases again.symm.trans (settleRegular_deeper settled (by omega))
    exact forming

/-- The walk over a table is made of such computations. -/
theorem walk {fuel pair : Nat} (formed : Formed start catalog) (sound : catalog.Sound)
    (settled : settleFrom fuel pair catalog = some final) : Formed start final := by
  induction fuel generalizing pair catalog with
  | zero => cases settled
  | succ fuel ih =>
    simp only [settleFrom] at settled
    split at settled
    next inside =>
      obtain ⟨first, oblivious, settled⟩ := Option.bind_eq_some_iff.mp settled
      obtain ⟨second, regular, settled⟩ := Option.bind_eq_some_iff.mp settled
      have known : catalog.contains (.ofPair pair) = true := contains_iff.mpr inside
      have one : Edits (fun _ _ => True) catalog first := settleOblivious_edits sound oblivious
      have two : Edits (fun _ _ => True) first second := settleRegular_edits (one.sound sound) regular
      exact ih (.regular (.oblivious formed known oblivious) (one.contains known) regular) (two.sound (one.sound sound)) settled
    next =>
      cases settled
      exact formed

end Formed
end Catalog

namespace Builder

open Catalog

variable {builder : Builder}

/-- In the table of a builder and in that of the locked system, types are younger than what they stand on. Showing a type,
computing its forms and naming it come to an end, and no slot for a name is written twice. -/
theorem parts_come_first (reached : builder.Reached) :
    ∃ filled formed system, builder.catalog.withAllowed? = some filled ∧ filled.withForms? = some formed ∧
      builder.lock = some (system, builder.diagnostics) ∧
      (∀ catalog ∈ [builder.catalog, system.catalog], catalog.Founded ∧ catalog.DisplayEnds) ∧
      Formed filled formed ∧ (∀ current, Formed filled current → current.Founded ∧ current.FormsEnd) ∧
      ∀ naming config set, Namer.NamingEnds ⟨system, naming, config, set⟩ ∧
        (NameMap.guardedBuild system naming config set).run = some (NameMap.build system naming config set) ∧
        ∀ map, NameMap.Chain system naming config map → (map.guardedSubset set).run = some (map.withSubset set) := by
  have sound := Reached.sound reached
  obtain ⟨system, locked, completes⟩ := Reached.locked reached
  obtain ⟨filled, entered, amends⟩ := withAllowed_total sound
  have edits : Edits (fun _ _ => True) builder.catalog filled := withAllowed_edits entered
  have recorded := (Reached.draft reached).recorded.amended sound edits amends
  obtain ⟨formed, settled, -⟩ := withForms_total (edits.sound sound) recorded
  have initial : Forming filled.size filled := ⟨edits.sound sound, recorded, .initial filled⟩
  refine ⟨filled, formed, system, entered, settled, locked, ?_, Formed.walk .start initial.sound settled, ?_, ?_⟩
  · intro catalog member
    have own : catalog.Sound := by
      rcases List.mem_cons.mp member with rfl | member
      · exact sound
      · rw [List.mem_singleton.mp member]
        exact completes.forming.sound
    exact ⟨own.ordered, own.displayEnds⟩
  · intro current reached
    have forming := reached.forming initial
    exact ⟨forming.sound.ordered, forming.formsEnd⟩
  · intro naming config set
    refine ⟨Namer.namingEnds completes.forming.sound, ?_, ?_⟩
    · rw [NameMap.guardedBuild_eq completes.forming.sound set]
      rfl
    · intro map chain
      rw [NameMap.guardedSubset_eq completes.forming.sound chain set]
      rfl

theorem parts_come_first_forest : forest.Reached ∧
    ∃ filled system, forest.catalog.withAllowed? = some filled ∧ forest.lock = some (system, forest.diagnostics) ∧
      (∀ part ∈ [TypeId.ofPair 20, .ofPair 20], part.pair < 21) ∧ system.catalog.DisplayEnds ∧
      (∃ after, ∀ depth, 21 < depth → settleOblivious depth filled (.ofPair 21) = some after) ∧
      (NameMap.guardedBuild system .standard {} (.full system {})).run =
        some (NameMap.build system .standard {} (.full system {})) := by
  obtain ⟨filled, formed, system, entered, settled, locked, tables, walked, forms, names⟩ := parts_come_first forest_reached
  obtain ⟨founded, -⟩ := tables forest.catalog (by simp)
  have tuple : forest.catalog.shape? (.ofPair 21) =
      some (.tuple [⟨.ofPair 20, some ⟨2⟩⟩, ⟨.ofPair 20, none⟩]) := by decide +kernel
  have known : filled.contains (.ofPair 21) = true := by
    have answered : (forest.catalog.withAllowed?.map fun filled => filled.contains (.ofPair 21)) = some true := by
      decide +kernel
    simpa [entered] using answered
  exact ⟨forest_reached, filled, system, entered, locked, founded _ _ tuple, (tables system.catalog (by simp)).2,
    ((forms filled .start).2 _ known).1, (names .standard {} (.full system {})).2.1⟩

end Builder
end Interchange
