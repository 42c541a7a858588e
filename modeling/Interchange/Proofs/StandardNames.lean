import Interchange.Proofs.NamingFaults

/-! The usual rules of naming. Names that they put together are never blank, so the naming of a set can fail at declared
names only, and at the configured name of byte arrays. -/

namespace Interchange

namespace Text

theorem isBlank_intercalate {separator text : String} {texts : List String} (member : text ∈ texts)
    (proper : isBlank text = false) : isBlank (separator.intercalate texts) = false := by
  induction texts with
  | nil => cases member
  | cons first rest ih =>
    cases rest with
    | nil =>
      obtain rfl : text = first := List.mem_singleton.mp member
      rwa [String.intercalate_singleton]
    | cons second rest =>
      rw [String.intercalate_cons_cons, isBlank_append, isBlank_append]
      rcases List.mem_cons.mp member with rfl | member
      · simp [proper]
      · simp [ih member]

end Text

namespace Namer

variable {namer : Namer} {ty : TypeId} {shape : Shape} {parts : List (TypeId × Option String)} {named : List NamedPart}
  {dependent : Bool} {entry : NameEntry}

def NamedAs (namer : Namer) (part : TypeId × Option String) (named : NamedPart) : Prop :=
  ∃ entry, namer.plain part.1 = .ok entry ∧ named = ⟨part.1, entry.nameOf part.1, part.2⟩

theorem plainParts_ok (listed : plainParts namer.plain parts = .ok (named, dependent)) :
    List.Forall₂ namer.NamedAs parts named := by
  induction parts generalizing named dependent with
  | nil =>
    cases listed
    exact .nil
  | cons part rest ih =>
    cases own : namer.plain part.1 with
    | error error => simp [plainParts, own, bind, Except.bind] at listed
    | ok entry =>
      cases others : plainParts namer.plain rest with
      | error error => simp [plainParts, own, others, bind, Except.bind] at listed
      | ok result =>
        simp only [plainParts, own, others, bind, Except.bind, pure, Except.pure] at listed
        cases listed
        exact .cons ⟨entry, own, rfl⟩ (ih others)

/-- A type that has a name got it by its rule, from the names of its parts. -/
theorem plain_ok (named : namer.plain ty = .ok entry) :
    ∃ shape parts dependent, namer.system.shape? ty = some shape ∧ List.Forall₂ namer.NamedAs (namer.parts shape) parts ∧
      namer.makeEntry ty.nonNull shape parts dependent = .ok entry := by
  cases found : namer.system.shape? ty with
  | none =>
    rw [plain_unregistered found] at named
    cases named
  | some shape =>
    rw [plain_eq found] at named
    cases inner : plainParts namer.plain (namer.parts shape) with
    | error error => simp [inner, bind, Except.bind] at named
    | ok result =>
      simp only [inner, bind, Except.bind] at named
      exact ⟨shape, result.1, result.2, rfl, plainParts_ok inner, named⟩

theorem NamedAs.proper {part : TypeId × Option String} {given : NamedPart}
    (as : namer.NamedAs part given) : Text.isBlank given.name = false := by
  obtain ⟨entry, named, rfl⟩ := as
  obtain ⟨shape, parts, dependent, -, -, made⟩ := plain_ok named
  obtain ⟨⟨-, plain⟩, -, nullable⟩ := makeEntry_ok made
  rw [NameEntry.nameOf]
  split
  · exact nullable
  · exact plain

end Namer

namespace Naming

/-- A type that the usual rules have no good name for: its declared name is blank, or it is the array of bytes and the
name configured for that is blank. -/
def Nameless (system : System) (config : Config) (ty : TypeId) : Prop :=
  ∃ shape, system.shape? ty = some shape ∧
    (shape.kind ∈ [.enumeration, .record, .primary, .abstraction] ∧
        Text.isBlank (NameContext.declaredName ⟨system, config, ty⟩) = true ∨
      shape = .array BasicType.byte.id ∧ Text.isBlank config.byteArrayName = true)

theorem basic_name_proper (basic : BasicType) : Text.isBlank basic.name = false := by
  cases basic <;> decide

end Naming

namespace Namer

open Naming

variable {system : System} {config : Config} {set : ExchangeSet} {ty : TypeId} {shape : Shape} {parts : List NamedPart}
  {dependent : Bool} {error : Error}

section Standard

variable (stable : set.Stable system) (eligible : set.isEligible ty = true)

include stable eligible

/-- The usual rules know every shape, and a blank name has been declared or configured. -/
theorem standard_answer (found : system.shape? ty = some shape)
    (listed : plainParts (plain ⟨system, .standard, config, set⟩) (Namer.parts ⟨system, .standard, config, set⟩ shape) =
      .ok (parts, dependent)) :
    ∃ name, Naming.standard.nameShape ⟨system, config, ty⟩ shape parts = some name ∧
      (Text.isBlank name = true → Nameless system config ty) := by
  have proper {name : String} (proper : Text.isBlank name = false) (blank : Text.isBlank name = true) :
      Nameless system config ty := by
    rw [proper] at blank
    cases blank
  have each := plainParts_ok listed
  cases shape with
  | any => exact ⟨"object", rfl, proper (by decide)⟩
  | basic basic => exact ⟨basic.name, rfl, proper (basic_name_proper basic)⟩
  | enumeration | record | primary | abstraction =>
    exact ⟨_, rfl, fun blank => ⟨_, found, .inl ⟨by simp [Shape.kind], blank⟩⟩⟩
  | secondary name head =>
    obtain ⟨part, rest, as, none, rfl⟩ := List.forall₂_cons_left_iff.mp each
    cases none
    exact ⟨part.name, rfl, proper as.proper⟩
  | tuple elements => exact ⟨_, rfl, proper (Text.not_blank_append (Text.not_blank_append (by decide) _) _)⟩
  | array item =>
    obtain ⟨part, rest, as, none, rfl⟩ := List.forall₂_cons_left_iff.mp each
    cases none
    obtain ⟨entry, -, rfl⟩ := as
    by_cases bytes : item = BasicType.byte.id
    · exact ⟨config.byteArrayName, if_pos bytes, fun blank => ⟨_, found, .inr ⟨congrArg Shape.array bytes, blank⟩⟩⟩
    · exact ⟨_, if_neg bytes, proper (Text.not_blank_append (Text.not_blank_append (by decide) _) _)⟩
  | list item form | set item form =>
    obtain ⟨part, rest, as, none, rfl⟩ := List.forall₂_cons_left_iff.mp each
    cases none
    exact ⟨_, rfl, proper (Text.not_blank_append (Text.not_blank_append (by decide) _) _)⟩
  | dictionary key value form =>
    obtain ⟨first, rest, -, others, rfl⟩ := List.forall₂_cons_left_iff.mp each
    obtain ⟨second, rest, -, none, rfl⟩ := List.forall₂_cons_left_iff.mp others
    cases none
    by_cases text : first.ty.nonNull = BasicType.string.id
    · exact ⟨_, if_pos text, proper (Text.not_blank_append (Text.not_blank_append (by decide) _) _)⟩
    · refine ⟨_, if_neg text, proper ?_⟩
      exact Text.not_blank_append (Text.not_blank_append (Text.not_blank_append (Text.not_blank_append (by decide) _) _) _) _
  | union members =>
    -- The union would have left the set with the last of its members.
    have staying := stable ty eligible
    rw [ExchangeSet.leaves, found, Option.any_some, ExchangeSet.mustLeave, Bool.not_eq_false', List.any_eq_true] at staying
    obtain ⟨member, present, inside⟩ := staying
    obtain ⟨first, rest, split⟩ := List.exists_cons_of_ne_nil (List.ne_nil_of_mem (List.mem_filter.mpr ⟨present, inside⟩))
    simp only [Namer.parts, split, List.map_cons] at each
    obtain ⟨part, others, as, -, rfl⟩ := List.forall₂_cons_left_iff.mp each
    exact ⟨_, rfl, proper (Text.isBlank_intercalate List.mem_cons_self as.proper)⟩

theorem nameless_of_fault (fault : Fault ⟨system, .standard, config, set⟩ ty error) : Nameless system config ty := by
  cases fault with
  | name found named shown refused =>
    obtain ⟨name, answer, blame⟩ := standard_answer stable eligible found named
    simp only [answer] at refused
    cases refused with
    | blank blank => exact blame blank
  | nullable found named answer proper shown refused =>
    cases refused with
    | blank blank =>
      rw [Text.not_blank_append proper] at blank
      cases blank

end Standard

/-- Types that are made of nothing are at fault, or get a name. -/
theorem basic_named (sound : system.catalog.Sound) (stable : set.Stable system) (basic : BasicType)
    (eligible : set.isEligible basic.id = true) : ∃ entry, plain ⟨system, .standard, config, set⟩ basic.id = .ok entry := by
  have found : system.shape? basic.id = some (.basic basic) := sound.basics basic
  cases outcome : plain ⟨system, .standard, config, set⟩ basic.id with
  | ok entry => exact ⟨entry, rfl⟩
  | error error =>
    have fault : Fault ⟨system, .standard, config, set⟩ basic.id error :=
      (@fault_iff ⟨system, .standard, config, set⟩ _ _ [] false _ sound rfl found rfl).mpr outcome
    obtain ⟨shape, again, reasons⟩ := nameless_of_fault stable eligible fault
    cases found.symm.trans again
    rcases reasons with ⟨named, -⟩ | ⟨bytes, -⟩
    · simp [Shape.kind] at named
    · cases bytes

/-- A blank name that has been declared is a fault, whatever else is in the system. -/
theorem fault_of_blank {shown : String} (found : system.shape? ty = some shape)
    (named : shape.kind ∈ [.enumeration, .record, .primary, .abstraction]) (display : system.display? ty = some shown)
    (blank : Text.isBlank (NameContext.declaredName ⟨system, config, ty⟩) = true) :
    Fault ⟨system, .standard, config, set⟩ ty (.invalidName shown (NameContext.declaredName ⟨system, config, ty⟩)) := by
  have answer : Naming.standard.nameShape ⟨system, config, ty⟩ shape [] =
      some (NameContext.declaredName ⟨system, config, ty⟩) := by
    cases shape <;> first | rfl | simp [Shape.kind] at named
  have none : Namer.parts ⟨system, .standard, config, set⟩ shape = [] := by
    cases shape <;> first | rfl | simp [Shape.kind] at named
  have unnamed : plainParts (plain ⟨system, .standard, config, set⟩) (Namer.parts ⟨system, .standard, config, set⟩ shape) =
      .ok ([], false) := by
    rw [none]
    rfl
  have refused : Refused shown shape.kind (Naming.standard.nameShape ⟨system, config, ty⟩ shape [])
      (.invalidName shown (NameContext.declaredName ⟨system, config, ty⟩)) := by
    rw [answer]
    exact .blank blank
  exact .name found unnamed display refused

theorem fault_of_nameless (sound : system.catalog.Sound) (stable : set.Stable system) (eligible : set.isEligible ty = true)
    (nameless : Nameless system config ty) : ∃ error, Fault ⟨system, .standard, config, set⟩ ty error := by
  obtain ⟨shape, found, reasons⟩ := nameless
  obtain ⟨unfolded, shown, -⟩ := sound.displayEnds ty (Catalog.contains_of_shape found)
  rcases reasons with ⟨named, blank⟩ | ⟨rfl, blank⟩
  · exact ⟨_, fault_of_blank found named shown blank⟩
  · have inside := @parts_eligible ⟨system, .standard, config, set⟩ ty _ stable found eligible
      (BasicType.byte.id, none) (by simp [Namer.parts, Shape.parts])
    obtain ⟨entry, named⟩ := @basic_named system config set sound stable .byte inside
    have parts : plainParts (plain ⟨system, .standard, config, set⟩)
        (Namer.parts ⟨system, .standard, config, set⟩ (.array BasicType.byte.id)) =
        .ok ([⟨BasicType.byte.id, entry.nameOf BasicType.byte.id, none⟩], entry.subsetDependent || false) := by
      simp only [Namer.parts, Shape.parts, List.map_cons, List.map_nil, plainParts, named, bind, Except.bind, pure, Except.pure]
    exact ⟨_, .name found parts shown (.blank blank)⟩

end Namer

namespace NameMap

open Namer Naming

variable {builder : Builder} {diagnostics : Diagnostics} {system : System} {set : ExchangeSet}

/-- The rules are asked about types of the set only, and about nothing that has a part outside of it. If a rule gives no
name or a blank one, the naming ends with the error for the first eligible type where that happens. The usual rules fail
at blank names that have been declared or configured, and at nothing else. -/
theorem build_ends_at_first_fault (reached : builder.Reached) (locked : builder.lock = some (system, diagnostics))
    {config : Config} {reject : TypeId → Bool} {calls : List SetCall}
    (made : SetCall.runAll system (ExchangeSet.withFilter system config reject) calls = some set)
    (naming : Naming) (settings : Config) :
    (askedBuild system naming settings set).run = some (build system naming settings set) ∧
    (∀ error, build system naming settings set = .error error ↔
      ∃ ty ∈ set.types, Fault ⟨system, naming, settings, set⟩ ty error ∧
        ∀ other ∈ set.types, other.pair < ty.pair → ∀ error, ¬ Fault ⟨system, naming, settings, set⟩ other error) ∧
    ((∃ error, build system .standard settings set = .error error) ↔ ∃ ty ∈ set.types, Nameless system settings ty) := by
  have sound := Builder.Reached.locked_sound reached locked
  have edits : Catalog.Edits (fun _ _ => True) builder.catalog system.catalog ∧ _ :=
    Builder.lock_edits (Builder.Reached.sound reached) locked
  obtain ⟨again, ran, -, admissible, -⟩ := ExchangeSet.run_greatest sound edits.2 config reject calls
  cases made.symm.trans ran
  refine ⟨?_, fun error => build_eq_error_iff sound admissible.stable admissible.capacity, ?_⟩
  · rw [askedBuild_eq admissible.stable]
    rfl
  · rw [build_fails_iff sound admissible.stable admissible.capacity]
    constructor
    · intro faulty
      obtain ⟨ty, member, error, fault⟩ := faulty
      exact ⟨ty, member, nameless_of_fault admissible.stable (ExchangeSet.mem_types.mp member).2 fault⟩
    · intro unnamed
      obtain ⟨ty, member, nameless⟩ := unnamed
      exact ⟨ty, member, fault_of_nameless sound admissible.stable (ExchangeSet.mem_types.mp member).2 nameless⟩

/-- A record whose external name is blank, and a list of such records. -/
def unlabelled : Builder :=
  Builder.new.replay [.record "Crate" false { externalName := some " " }, .list (.ofPair 19) .concrete]

/-- The record is the first type at fault, and the error is for it; the list is not reached. -/
theorem build_ends_at_first_fault_unlabelled : ∃ system diagnostics, unlabelled.Reached ∧
    unlabelled.lock = some (system, diagnostics) ∧
    SetCall.runAll system (ExchangeSet.withFilter system {} fun _ => false) [] = some (.full system {}) ∧
    (askedBuild system .standard {} (.full system {})).run = some (build system .standard {} (.full system {})) ∧
    build system .standard {} (.full system {}) = .error (.invalidName "Crate" " ") ∧
    Fault ⟨system, .standard, {}, .full system {}⟩ (.ofPair 19) (.invalidName "Crate" " ") ∧
    (∀ other ∈ (ExchangeSet.full system {}).types, other.pair < 19 → ∀ error,
      ¬ Fault ⟨system, .standard, {}, .full system {}⟩ other error) ∧
    ∃ ty ∈ (ExchangeSet.full system {}).types, Nameless system {} ty := by
  have reached : unlabelled.Reached := Builder.ReachedBy.new.replay (by decide +kernel)
  have answered : (unlabelled.lock.map fun result =>
      (SetCall.runAll result.1 (ExchangeSet.withFilter result.1 {} fun _ => false) [] == some (.full result.1 {}),
        (build result.1 .standard {} (.full result.1 {})).map fun _ => (),
        (ExchangeSet.full result.1 {}).types.filter fun ty =>
          result.1.display? ty == some "Crate" || result.1.display? ty.orNull == some "Crate")) =
      some (true, .error (.invalidName "Crate" " "), [.ofPair 19]) := by
    decide +kernel
  obtain ⟨⟨system, diagnostics⟩, locked, answered⟩ := Option.map_eq_some_iff.mp answered
  simp only [Prod.mk.injEq, beq_iff_eq] at answered
  obtain ⟨made, failed, shown⟩ := answered
  have failed := map_eq_error failed
  obtain ⟨asked, errors, fails⟩ := build_ends_at_first_fault reached locked made .standard {}
  obtain ⟨ty, member, fault, first⟩ := (errors _).mp failed
  have own : ty ∈ [TypeId.ofPair 19] := shown ▸ List.mem_filter.mpr ⟨member, by simpa using fault.shown⟩
  cases List.mem_singleton.mp own
  exact ⟨system, diagnostics, reached, locked, made, asked, failed, fault, first, fails.mp ⟨_, failed⟩⟩

/-- A union that was entered before its member, and two enumerations with blank names. The second one is the member. -/
def misplaced : Builder :=
  Builder.new.replay [.union [.ofPair 21], .enumeration " " .int {}, .enumeration "\t" .int {}]

/-- Where ids are handed over before they are registered, a type may be named before others that are at fault and older: the
first enumeration is passed over. -/
theorem build_passes_over_misplaced : ∃ system diagnostics, misplaced.lock = some (system, diagnostics) ∧ system.Locked ∧
    SetCall.runAll system (ExchangeSet.withFilter system {} fun _ => false) [] = some (.full system {}) ∧
    build system .standard {} (.full system {}) = .error (.invalidName "\t" "\t") ∧
    Fault ⟨system, .standard, {}, .full system {}⟩ (.ofPair 20) (.invalidName " " " ") ∧
    ¬ ∃ ty ∈ (ExchangeSet.full system {}).types, Fault ⟨system, .standard, {}, .full system {}⟩ ty (.invalidName "\t" "\t") ∧
      ∀ other ∈ (ExchangeSet.full system {}).types, other.pair < ty.pair → ∀ error,
        ¬ Fault ⟨system, .standard, {}, .full system {}⟩ other error := by
  have answered : (misplaced.lock.map fun result =>
      (SetCall.runAll result.1 (ExchangeSet.withFilter result.1 {} fun _ => false) [] == some (.full result.1 {}),
        (build result.1 .standard {} (.full result.1 {})).map fun _ => (),
        (ExchangeSet.full result.1 {}).types.filter fun ty =>
          result.1.display? ty == some "\t" || result.1.display? ty.orNull == some "\t")) =
      some (true, .error (.invalidName "\t" "\t"), [.ofPair 21]) := by
    decide +kernel
  have first : (misplaced.lock.map fun result => (result.1.catalog.kind? (.ofPair 20), result.1.display? (.ofPair 20),
      NameContext.declaredName ⟨result.1, {}, .ofPair 20⟩)) = some (some .enumeration, some " ", " ") := by decide +kernel
  obtain ⟨⟨system, diagnostics⟩, lock, answered⟩ := Option.map_eq_some_iff.mp answered
  simp only [lock, Option.map_some, Option.some.injEq, Prod.mk.injEq, beq_iff_eq] at answered first
  obtain ⟨made, failed, shown⟩ := answered
  obtain ⟨kind, display, declared⟩ := first
  obtain ⟨shape, found, enumeration⟩ := Catalog.shape_of_kind kind
  have reached : Builder.ReachedBy (fun _ _ => True) misplaced := Builder.ReachedBy.new.replay (by decide +kernel)
  have fault : Fault ⟨system, .standard, {}, .full system {}⟩ (.ofPair 20) (.invalidName " " " ") := by
    have blank : Text.isBlank (NameContext.declaredName ⟨system, {}, .ofPair 20⟩) = true := by
      rw [declared]
      decide
    have fault := @fault_of_blank system {} (.full system {}) _ _ _ found (by simp [enumeration]) display blank
    rwa [declared] at fault
  refine ⟨system, diagnostics, lock, .of_reached reached lock, made, map_eq_error failed, fault, ?_⟩
  rintro ⟨ty, member, own, first⟩
  have last : ty ∈ [TypeId.ofPair 21] := shown ▸ List.mem_filter.mpr ⟨member, by simpa using own.shown⟩
  cases List.mem_singleton.mp last
  have listed : TypeId.ofPair 20 ∈ (ExchangeSet.full system {}).types := by
    refine ExchangeSet.mem_types.mpr ⟨rfl, ?_⟩
    rw [ExchangeSet.full_isEligible, decide_eq_true_eq]
    exact Catalog.contains_iff.mp (Catalog.contains_of_shape found)
  exact first _ listed (by decide) _ fault

end NameMap
end Interchange
