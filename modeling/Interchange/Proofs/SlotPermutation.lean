import Interchange.Proofs.ResolutionBounds
import Interchange.Proofs.ResolutionRuns

/-! The order in which a slot is declared. Whatever a slot is resolved to is the greatest type
below all declarations, so another order gives the same type unless it runs into a conflict on the way. -/

namespace Interchange

def SlotConflict.IsClash (conflict : SlotConflict) : Prop :=
  ∃ reason left right, conflict.cause = .clash reason left right

namespace Catalog

variable {catalog later final : Catalog} {left lower upper ty : TypeId} {types : List TypeId}

theorem Below.extend (extension : catalog.Extends later) (below : Below catalog lower upper) : Below later lower upper := by
  induction below with
  | refl ty => exact .refl ty
  | trans _ _ first second => exact .trans first second
  | orNull ty => exact .orNull ty
  | any plain => exact .any plain
  | anyOrNull ty => exact .anyOrNull ty
  | lift _ ih => exact .lift ih
  | array lowerFound upperFound => exact .array (extension.shape lowerFound) (extension.shape upperFound)
  | covariant lowerFound upperFound _ forms ih =>
    exact .covariant (extension.shape lowerFound) (extension.shape upperFound) ih forms
  | secondary found => exact .secondary (extension.shape found)
  | primary found => exact .primary (extension.shape found)
  | derived found member => exact .derived (extension.shape found) member

structure IsSlotMeet (catalog : Catalog) (types : List TypeId) (ty : TypeId) : Prop where
  below : ∀ declared ∈ types, Below catalog ty declared
  greatest : ∀ lower, catalog.contains lower = true → (∀ declared ∈ types, Below catalog lower declared) →
    Below catalog lower ty

/-- What is greatest below the same declarations is written out alike. -/
theorem IsSlotMeet.familyStructure?_eq {others : List TypeId} {other : TypeId} (sound : catalog.Sound)
    (hierarchical : catalog.Hierarchical) (mine : IsSlotMeet catalog types ty) (theirs : IsSlotMeet catalog others other)
    (same : ∀ declared, declared ∈ types ↔ declared ∈ others) (inside : catalog.contains ty = true)
    (otherInside : catalog.contains other = true) : catalog.familyStructure? ty = catalog.familyStructure? other := by
  have forward : Below catalog ty other := by
    apply theirs.greatest ty inside
    intro declared member
    exact mine.below declared ((same declared).mpr member)
  have backward : Below catalog other ty := by
    apply mine.greatest other otherInside
    intro declared member
    exact theirs.below declared ((same declared).mp member)
  exact forward.familyStructure?_eq sound hierarchical inside backward

theorem foldSlot_isSlotMeet (sound : catalog.Sound) (leftKnown : catalog.contains left = true)
    (known : ∀ ty ∈ types, catalog.contains ty = true) (resolved : catalog.foldSlot left types = (.ok ty, final))
    (extension : final.Extends later) (laterSound : later.Sound) (hierarchical : later.Hierarchical) :
    IsSlotMeet later (left :: types) ty := by
  induction types generalizing catalog left with
  | nil =>
    cases resolved
    exact ⟨by simp [Below.refl], fun lower _ below => below ty (by simp)⟩
  | cons right rest ih =>
    simp only [foldSlot] at resolved
    cases outcome : catalog.resolvePair left right with
    | error conflict => simp [outcome] at resolved
    | ok result =>
      obtain ⟨merged, grown⟩ := result
      simp only [outcome] at resolved
      have rightKnown := known right (by simp)
      obtain ⟨growth, inside⟩ := resolvePair_growth sound leftKnown rightKnown outcome
      have others : ∀ ty ∈ rest, grown.contains ty = true := fun ty member =>
        growth.extension.contains (known ty (by simp [member]))
      have afterwards := (foldSlot_growth (growth.sound sound) inside others).1.extension
      rw [resolved] at afterwards
      have meet := resolveWithin_isMeet sound leftKnown rightKnown outcome (afterwards.trans extension) laterSound hierarchical
      have slot := ih (growth.sound sound) inside others resolved
      have beneath := slot.below merged (by simp)
      constructor
      · intro declared member
        rcases List.mem_cons.mp member with rfl | member
        · exact .trans beneath meet.belowLeft
        rcases List.mem_cons.mp member with rfl | member
        · exact .trans beneath meet.belowRight
        · exact slot.below declared (by simp [member])
      · intro lower known below
        apply slot.greatest lower known
        intro declared member
        rcases List.mem_cons.mp member with rfl | member
        · exact meet.greatest lower known (below left (by simp)) (below right (by simp))
        · exact below declared (by simp [member])

/-- A slot with a type below all its declarations fails avoidably. -/
theorem foldSlot_error {conflict : SlotConflict} (sound : catalog.Sound) (hierarchical : catalog.Hierarchical)
    (leftKnown : catalog.contains left = true) (known : ∀ ty ∈ types, catalog.contains ty = true)
    (inside : catalog.contains lower = true) (below : ∀ declared ∈ left :: types, Below catalog lower declared)
    (failed : catalog.foldSlot left types = (.error conflict, final)) : Avoidable final conflict.cause := by
  induction types generalizing catalog left with
  | nil => cases failed
  | cons right rest ih =>
    have rightKnown := known right (by simp)
    simp only [foldSlot] at failed
    cases outcome : catalog.resolvePair left right with
    | error cause =>
      simp only [outcome] at failed
      cases failed
      exact resolveWithin_error sound hierarchical leftKnown rightKnown (Nat.lt_succ_of_lt (contains_iff.mp leftKnown))
        (below left (by simp)) (below right (by simp)) outcome
    | ok result =>
      obtain ⟨merged, grown⟩ := result
      simp only [outcome] at failed
      obtain ⟨growth, present⟩ := resolvePair_growth sound leftKnown rightKnown outcome
      have extension := growth.extension
      have meet := resolveWithin_isMeet sound leftKnown rightKnown outcome (.refl _) (growth.sound sound)
        (growth.hierarchical hierarchical)
      have beneath : ∀ declared ∈ merged :: rest, Below grown lower declared := by
        intro declared member
        rcases List.mem_cons.mp member with rfl | member
        · exact meet.greatest lower (extension.contains inside) ((below left (by simp)).extend extension)
            ((below right (by simp)).extend extension)
        · exact (below declared (by simp [member])).extend extension
      exact ih (growth.sound sound) (growth.hierarchical hierarchical) present
        (fun ty member => extension.contains (known ty (by simp [member]))) (extension.contains inside) beneath failed

/-- A slot of registered declarations fails because two types clash, never because a search has no end. -/
theorem foldSlot_clash {conflict : SlotConflict} (sound : catalog.Sound) (hierarchical : catalog.Hierarchical)
    (leftKnown : catalog.contains left = true) (known : ∀ ty ∈ types, catalog.contains ty = true)
    (failed : catalog.foldSlot left types = (.error conflict, final)) : conflict.IsClash := by
  have fork : Fork catalog catalog catalog := ⟨.refl _, .refl _, sound, sound, sound, hierarchical, hierarchical, hierarchical⟩
  have parallel := foldSlot_parallel fork (.old leftKnown) known
  rw [failed] at parallel
  cases parallel with
  | error cause => exact ⟨_, _, _, cause⟩

/-- Another order of the declarations gives the same structure, or it is stopped by a conflict that can be avoided. -/
theorem foldSlot_reordered {first second : TypeId} {rest others : List TypeId} (sound : catalog.Sound)
    (hierarchical : catalog.Hierarchical) (known : ∀ ty ∈ first :: rest, catalog.contains ty = true)
    (same : ∀ ty, ty ∈ first :: rest ↔ ty ∈ second :: others) (resolved : catalog.foldSlot first rest = (.ok ty, final)) :
    (∃ other after text, catalog.foldSlot second others = (.ok other, after) ∧ final.familyStructure? ty = some text ∧
      after.familyStructure? other = some text) ∨
    ∃ conflict after, catalog.foldSlot second others = (.error conflict, after) ∧ Avoidable after conflict.cause := by
  have knownRest : ∀ ty ∈ rest, catalog.contains ty = true := fun ty member => known ty (by simp [member])
  have secondKnown : catalog.contains second = true := known second ((same second).mpr (by simp))
  have othersKnown : ∀ ty ∈ others, catalog.contains ty = true := fun ty member =>
    known ty ((same ty).mpr (by simp [member]))
  obtain ⟨growth, answered⟩ := foldSlot_growth sound (known first (by simp)) knownRest
  rw [resolved] at growth answered
  have inside := answered ty rfl
  have finalSound := growth.sound sound
  have finalHierarchical := growth.hierarchical hierarchical
  have extension := growth.extension
  have fork : Fork catalog catalog final :=
    ⟨.refl _, extension, sound, sound, finalSound, hierarchical, hierarchical, finalHierarchical⟩
  -- The second order is run from the table that the first one leaves, where both results can be compared.
  have parallel := foldSlot_parallel fork (.old secondKnown) othersKnown
  have finalOthers : ∀ ty ∈ others, final.contains ty = true := fun ty member => extension.contains (othersKnown ty member)
  obtain ⟨onward, onwardAnswered⟩ := foldSlot_growth finalSound (extension.contains secondKnown) finalOthers
  have forked := fork.grow (foldSlot_growth sound secondKnown othersKnown).1 onward
  generalize run : catalog.foldSlot second others = outcome at parallel forked ⊢
  generalize rerun : final.foldSlot second others = outcome' at parallel forked onward onwardAnswered
  cases parallel with
  | @ok other other' after further twin =>
    refine .inl ?_
    have further' := onward.extension
    have mine := foldSlot_isSlotMeet sound (known first (by simp)) knownRest resolved further' forked.twoSound
      forked.twoHierarchical
    have theirs := foldSlot_isSlotMeet finalSound (extension.contains secondKnown) finalOthers rerun (.refl _)
      forked.twoSound forked.twoHierarchical
    have alike := mine.familyStructure?_eq forked.twoSound forked.twoHierarchical theirs same (further'.contains inside)
      (onwardAnswered other' rfl)
    obtain ⟨text, written⟩ := Option.isSome_iff_exists.mp (familyStructure?_isSome finalSound finalHierarchical inside)
    refine ⟨other, after, text, rfl, written, ?_⟩
    calc after.familyStructure? other
      _ = further.familyStructure? other' := twin.familyStructure? forked
      _ = further.familyStructure? ty := alike.symm
      _ = final.familyStructure? ty := familyStructure?_extend further' finalSound finalHierarchical inside
      _ = some text := written
  | @error conflict conflict' reason _ _ _ _ after further cause cause' firstTwin secondTwin =>
    refine .inr ⟨conflict, after, rfl, ?_⟩
    have mine := foldSlot_isSlotMeet sound (known first (by simp)) knownRest resolved (.refl _) finalSound finalHierarchical
    have avoidable := foldSlot_error finalSound finalHierarchical (extension.contains secondKnown) finalOthers inside
      (fun declared member => mine.below declared ((same declared).mpr member)) rerun
    rw [cause'] at avoidable
    rw [cause]
    exact .of_twins forked firstTwin secondTwin avoidable

end Catalog

namespace Builder

/-- How two orders of one slot may compare. Only a conflict that can be avoided stops one and not the other. -/
inductive SlotAgreement :
    Except SlotConflict (Option TypeId) × Builder → Except SlotConflict (Option TypeId) × Builder → Prop where
  | empty {one two : Builder} : SlotAgreement (.ok none, one) (.ok none, two)
  | same {one two : Builder} {first second : TypeId} {text : Structure} (left : one.catalog.familyStructure? first = some text)
      (right : two.catalog.familyStructure? second = some text) :
      SlotAgreement (.ok (some first), one) (.ok (some second), two)
  | conflicts {one two : Builder} {first second : SlotConflict} (left : first.IsClash) (right : second.IsClash) :
      SlotAgreement (.error first, one) (.error second, two)
  | leftStopped {one two : Builder} {conflict : SlotConflict} {ty : TypeId}
      (avoidable : one.catalog.Avoidable conflict.cause) : SlotAgreement (.error conflict, one) (.ok (some ty), two)
  | rightStopped {one two : Builder} {conflict : SlotConflict} {ty : TypeId}
      (avoidable : two.catalog.Avoidable conflict.cause) : SlotAgreement (.ok (some ty), one) (.error conflict, two)

variable {builder : Builder} {types others : List TypeId}

theorem resolveSlot_cons {first : TypeId} {rest : List TypeId} {result : Except SlotConflict TypeId} {catalog : Catalog}
    (run : builder.catalog.foldSlot first rest = (result, catalog)) :
    builder.resolveSlot (first :: rest) = (result.map some, { builder with catalog }) := by
  simp only [resolveSlot, Catalog.resolveSlot, run]

/-- Declarations are resolved alike in every order, apart from conflicts that another order avoids. -/
theorem resolveSlot_perm (reached : builder.OrderlyReached) (known : ∀ ty ∈ types, builder.catalog.contains ty = true)
    (perm : types.Perm others) : SlotAgreement (builder.resolveSlot types) (builder.resolveSlot others) := by
  have sound := OrderlyReached.sound reached
  have hierarchical := OrderlyReached.hierarchical reached
  cases types with
  | nil =>
    rw [perm.nil_eq.symm]
    exact .empty
  | cons first rest =>
  cases others with
  | nil => exact absurd perm.eq_nil (List.cons_ne_nil _ _)
  | cons second tail =>
  have same (ty : TypeId) : ty ∈ first :: rest ↔ ty ∈ second :: tail := perm.mem_iff
  have tailKnown : ∀ ty ∈ second :: tail, builder.catalog.contains ty = true := fun ty member => known ty ((same ty).mpr member)
  obtain ⟨⟨result, final⟩, run⟩ : ∃ outcome, builder.catalog.foldSlot first rest = outcome := ⟨_, rfl⟩
  obtain ⟨⟨result', final'⟩, run'⟩ : ∃ outcome, builder.catalog.foldSlot second tail = outcome := ⟨_, rfl⟩
  rw [resolveSlot_cons run, resolveSlot_cons run']
  cases result with
  | ok ty =>
    rcases Catalog.foldSlot_reordered sound hierarchical known same run with
      ⟨other, after, text, again, left, right⟩ | ⟨conflict, after, again, avoidable⟩
    · cases run'.symm.trans again
      exact .same left right
    · cases run'.symm.trans again
      exact .rightStopped avoidable
  | error conflict =>
    cases result' with
    | error other =>
      have clash := Catalog.foldSlot_clash sound hierarchical (known first (by simp)) (fun ty member => known ty (by simp [member])) run
      have clash' := Catalog.foldSlot_clash sound hierarchical (tailKnown second (by simp))
        (fun ty member => tailKnown ty (by simp [member])) run'
      exact .conflicts clash clash'
    | ok ty =>
      rcases Catalog.foldSlot_reordered sound hierarchical tailKnown (fun ty => (same ty).symm) run' with
        ⟨other, after, text, again, -⟩ | ⟨conflict', after, again, avoidable⟩
      · cases run.symm.trans again
      · cases run.symm.trans again
        exact .leftStopped avoidable

/-- Two abstractions with a common implementation; an array, and read-only lists of anything and of its items. -/
def crossroads : Builder :=
  Builder.new.replay [.abstraction "Readable" [] {}, .abstraction "Writable" [] {}, .primary "Stream" {},
    .implement (.ofPair 21) (.ofPair 19), .implement (.ofPair 21) (.ofPair 20), .array BasicType.string.id,
    .list .any .readOnly, .list BasicType.string.id .readOnly]

theorem crossroads_reached : crossroads.OrderlyReached :=
  ReachedBy.new.replay (by decide +kernel)

theorem resolveSlot_perm_samples :
    SlotAgreement (shelves.resolveSlot [.ofPair 19, .ofPair 20]) (shelves.resolveSlot [.ofPair 20, .ofPair 19]) ∧
    SlotAgreement (crossroads.resolveSlot [.ofPair 19, .ofPair 20, .ofPair 21])
      (crossroads.resolveSlot [.ofPair 21, .ofPair 19, .ofPair 20]) :=
  ⟨resolveSlot_perm shelves_reached (by decide +kernel) (by decide),
    resolveSlot_perm crossroads_reached (by decide +kernel) (by decide)⟩

/-- In one order either slot fails, in another it is resolved. -/
theorem resolveSlot_order_matters :
    crossroads.OrderlyReached ∧ (∀ pair ∈ [19, 20, 21, 22, 23, 24], crossroads.catalog.contains (.ofPair pair) = true) ∧
    [TypeId.ofPair 19, .ofPair 20, .ofPair 21].Perm [.ofPair 21, .ofPair 19, .ofPair 20] ∧
    (crossroads.resolveSlot [.ofPair 19, .ofPair 20, .ofPair 21]).1.toOption = none ∧
    (crossroads.resolveSlot [.ofPair 21, .ofPair 19, .ofPair 20]).1.toOption = some (some (.ofPair 21)) ∧
    [TypeId.ofPair 22, .ofPair 23, .ofPair 24].Perm [.ofPair 23, .ofPair 24, .ofPair 22] ∧
    (crossroads.resolveSlot [.ofPair 22, .ofPair 23, .ofPair 24]).1.toOption = none ∧
    (crossroads.resolveSlot [.ofPair 23, .ofPair 24, .ofPair 22]).1.toOption = some (some (.ofPair 22)) := by
  refine ⟨crossroads_reached, ?_⟩
  decide +kernel

end Builder
end Interchange
