import Interchange.Proofs.DraftEntries
import Mathlib.Data.List.Nodup

/-! Where fields come from. The history of a builder tells which declarations of members stand for each owner; a field
has a default of its own if one of the declarations of its name carries one. -/

namespace Interchange

/-- The declaration carries a default value, in its text or else in its attributes. -/
def Member.hasDefault (member : Member) : Bool :=
  member.blob.elim member.attributes.hasDefault fun text => (Attributes.ofString text).toOption.any Attributes.hasDefault

def Member.Defaults (members : List Member) (name : String) : Prop :=
  ∃ member ∈ members, member.name = name ∧ member.hasDefault = true

namespace Slot

def Defaults (slots : List Slot) (name : String) : Prop :=
  ∃ slot ∈ slots, slot.name = name ∧ slot.declared.any Declared.explicitDefault = true

variable {slots : List Slot} {name : String} {declared : Declared}

theorem insert_names : (Slot.insert name declared slots).map Slot.name =
    if name ∈ slots.map Slot.name then slots.map Slot.name else slots.map Slot.name ++ [name] := by
  induction slots with
  | nil => rfl
  | cons slot rest ih =>
    by_cases same : slot.name = name
    · simp [Slot.insert, same]
    · have different : name ≠ slot.name := fun equal => same equal.symm
      simp only [Slot.insert, if_neg same, List.map_cons, ih, List.mem_cons, different, false_or]
      split <;> rfl

theorem insert_nodup (distinct : (slots.map Slot.name).Nodup) : ((Slot.insert name declared slots).map Slot.name).Nodup := by
  rw [insert_names]
  split
  next => exact distinct
  next absent =>
    rw [← List.concat_eq_append]
    exact distinct.concat absent

theorem defaults_cons {slot : Slot} {rest : List Slot} : Defaults (slot :: rest) name ↔
    (slot.name = name ∧ slot.declared.any Declared.explicitDefault = true) ∨ Defaults rest name := by
  simp only [Defaults, List.mem_cons, exists_eq_or_imp]

theorem defaults_insert {other : String} : Defaults (Slot.insert name declared slots) other ↔
    Defaults slots other ∨ name = other ∧ declared.explicitDefault = true := by
  induction slots with
  | nil => simp [Defaults, Slot.insert]
  | cons slot rest ih =>
    rw [Slot.insert, defaults_cons]
    split
    next same =>
      rw [defaults_cons, List.any_append, Bool.or_eq_true, same]
      simp only [List.any_cons, List.any_nil, Bool.or_false]
      grind
    next =>
      rw [defaults_cons, ih, or_assoc]

theorem defaults_iff {slot : Slot} (distinct : (slots.map Slot.name).Nodup) (member : slot ∈ slots) :
    Defaults slots slot.name ↔ slot.declared.any Declared.explicitDefault = true := by
  constructor
  · rintro ⟨other, present, same, explicit⟩
    rwa [← List.inj_on_of_nodup_map distinct present member same]
  · exact fun explicit => ⟨slot, member, rfl, explicit⟩

end Slot

namespace Builder

open Catalog

variable {builder final : Builder} {member : Member} {location : Location}

def accepted (builder : Builder) (owner : String) : List (Option TypeId × Member) → List Member
  | [] => []
  | (origin, member) :: rest =>
    match builder.checkMember member origin (.ofMember owner member.name) with
    | none => []
    | some (none, builder) => builder.accepted owner rest
    | some (some _, builder) => member :: builder.accepted owner rest

theorem checkMember_hasDefault {origin : Option TypeId} {declared : Declared}
    (checked : builder.checkMember member origin location = some (some declared, final)) :
    declared.explicitDefault = member.hasDefault := by
  have carried : ∀ attributes after, builder.memberAttributes member location = (some attributes, after) →
      attributes.hasDefault = member.hasDefault := by
    intro attributes after read
    rw [memberAttributes] at read
    rw [Member.hasDefault]
    cases given : member.blob with
    | none =>
      simp only [given] at read
      cases read
      rfl
    | some text =>
      simp only [given] at read
      cases parsed : Attributes.ofString text with
      | ok attributes =>
        simp only [parsed] at read
        cases read
        simp [parsed, Except.toOption]
      | error error =>
        simp only [parsed] at read
        cases read
  simp only [checkMember] at checked
  split at checked
  · cases checked
  next attributes first read =>
    split at checked
    · split at checked
      · cases checked
      · cases checked
      · split at checked
        · cases checked
        · cases checked
        · cases checked
          exact carried attributes first read
    · cases checked

theorem collectSlots_defaults {owner : String} {members : List (Option TypeId × Member)} {slots result : List Slot}
    (distinct : (slots.map Slot.name).Nodup) (collected : builder.collectSlots owner slots members = some (result, final)) :
    (result.map Slot.name).Nodup ∧
      ∀ name, Slot.Defaults result name ↔ Slot.Defaults slots name ∨ Member.Defaults (builder.accepted owner members) name := by
  induction members generalizing builder slots with
  | nil =>
    cases collected
    exact ⟨distinct, by simp [accepted, Member.Defaults]⟩
  | cons first rest ih =>
    obtain ⟨origin, member⟩ := first
    simp only [collectSlots] at collected
    split at collected
    · cases collected
    next checked outcome =>
      rw [accepted, outcome]
      exact ih distinct collected
    next declared checked outcome =>
      rw [accepted, outcome]
      obtain ⟨last, each⟩ := ih (Slot.insert_nodup distinct) collected
      refine ⟨last, ?_⟩
      intro name
      rw [each, Slot.defaults_insert, checkMember_hasDefault outcome]
      simp [Member.Defaults, or_assoc]

end Builder

/-- The declarations that stand after a definition of members: those of a composite owner are replaced. -/
def Builder.redeclare (builder : Builder) (declared : Nat → List Member) (owner : TypeId)
    (members : List (Option TypeId × Member)) (pair : Nat) : List Member :=
  if (builder.catalog.kind? owner).any Kind.isComposite ∧ pair = owner.pair then
    builder.accepted ((builder.catalog.display? owner.nonNull).getD "") members
  else declared pair

def Call.redeclare (builder : Builder) (declared : Nat → List Member) (call : Call) : Nat → List Member :=
  match call.defines? with
  | none => declared
  | some (owner, members) => builder.redeclare declared owner members

namespace Builder

open Catalog

/-- Reached by calls that hand over registered ids, after which the given declarations stand for the owner of each pair. -/
inductive Declares : Builder → (Nat → List Member) → Prop where
  | new : Declares .new fun _ => []
  | call {before after : Builder} {declared : Nat → List Member} (earlier : Declares before declared) (call : Call)
      (known : call.Registered before) (ran : call.run before = some after) : Declares after (call.redeclare before declared)

variable {builder : Builder} {declared : Nat → List Member}

theorem Declares.reached (declares : builder.Declares declared) : builder.Reached := by
  induction declares with
  | new => exact .new
  | call _ call known ran ih => exact .call ih call known ran

theorem Reached.declares (reached : builder.Reached) : ∃ declared, builder.Declares declared := by
  induction reached with
  | new => exact ⟨_, .new⟩
  | call _ call known ran ih =>
    obtain ⟨declared, declares⟩ := ih
    exact ⟨_, .call declares call known ran⟩

end Builder

namespace Catalog

variable {catalog before after : Catalog} {declared : Nat → List Member}

/-- Whether a field has a default of its own follows from the declarations of its name. -/
def Accounts (catalog : Catalog) (declared : Nat → List Member) : Prop :=
  ∀ ty shape field, catalog.shape? ty = some shape → field ∈ shape.fields → ∃ name,
    catalog.strings.get? field.name = some name ∧ (field.explicitDefault = true ↔ Member.Defaults (declared ty.pair) name)

/-- Fields that stay as they are stay accounted for. -/
theorem Accounts.drafts (accounts : before.Accounts declared) (drafts : Drafts before after)
    (spelled : ∀ symbol text, before.strings.get? symbol = some text → after.strings.get? symbol = some text) :
    after.Accounts declared := by
  intro ty shape field found member
  obtain ⟨entry, present, rfl⟩ := shape?_eq_some_iff.mp found
  rcases drafts.cases present with ⟨-, bare⟩ | ⟨old, known, follows⟩
  · rw [bare] at member
    cases member
  · rw [follows.fields] at member
    obtain ⟨name, text, explicit⟩ := accounts ty old.shape field (shape?_eq_some_iff.mpr ⟨old, known, rfl⟩) member
    exact ⟨name, spelled _ _ text, explicit⟩

/-- The fields that a definition of members makes are accounted for by the declarations that it accepts. -/
theorem Accounts.defineMembers {builder final : Builder} {owner : TypeId} {members : List (Option TypeId × Member)}
    (accounts : builder.catalog.Accounts declared) (sound : builder.catalog.Sound)
    (known : ∀ member ∈ members, ∀ ty ∈ member.2.mentions, builder.catalog.contains ty = true)
    (defined : builder.defineMembers owner members = some final) :
    final.catalog.Accounts (builder.redeclare declared owner members) := by
  intro ty shape field found member
  rcases Builder.defineMembers_cases defined with
    ⟨other, same⟩ | ⟨name, slots, collected, fields, resolved, composite, named, collecting, resolving, same⟩
  · rw [Builder.redeclare, if_neg (by simp [other]), same]
    exact accounts ty shape field (same ▸ found) member
  · obtain ⟨first, registered⟩ :=
      @Builder.collectSlots_edits builder collected (fun _ _ => True) _ _ _ _ sound known (by simp) collecting
    obtain ⟨second, made⟩ :=
      @Builder.resolveSlots_edits collected resolved (fun _ _ => True) _ _ _ (first.sound sound) registered resolving
    have kept := accounts.drafts ((Builder.collectSlots_drafts collecting).trans (Builder.resolveSlots_drafts resolving))
      fun _ _ text => second.get? (first.get? text)
    rw [same] at found ⊢
    rw [modifyShape_shape?] at found
    split at found
    next own =>
      obtain ⟨old, -, rfl⟩ := Option.map_eq_some_iff.mp found
      have listed : field ∈ fields := by
        cases old with
        | record | primary => exact member
        | _ => cases member
      obtain ⟨-, slot, present, spelled, explicit⟩ := made field listed
      obtain ⟨distinct, defaults⟩ := Builder.collectSlots_defaults (by simp) collecting
      refine ⟨slot.name, spelled, ?_⟩
      rw [Builder.redeclare, if_pos ⟨composite, own.symm⟩, named, Option.getD_some, explicit,
        ← Slot.defaults_iff distinct present, defaults]
      simp [Slot.Defaults]
    next different =>
      rw [Builder.redeclare, if_neg fun both => different both.2.symm]
      exact kept ty shape field found member

end Catalog

theorem Builder.Declares.accounts {builder : Builder} {declared : Nat → List Member} (declares : builder.Declares declared) :
    builder.catalog.Accounts declared := by
  induction declares with
  | new =>
    refine Catalog.Accounts.drafts ?_ Catalog.standard_drafts fun _ _ text => text
    intro ty shape field found
    cases found
  | @call before after declared earlier call known ran ih =>
    have sound := Reached.sound earlier.reached
    have edits := @Call.edits _ _ call (fun _ _ => True) sound known (fun _ _ _ _ => trivial) ran
    unfold Call.redeclare
    rcases call.cases_of_run ran with ⟨other, drafts⟩ | ⟨owner, members, defines, defined⟩
    · rw [other]
      exact ih.drafts drafts fun _ _ found => edits.get? found
    · rw [defines]
      exact ih.defineMembers sound (known.members defines) defined

end Interchange
