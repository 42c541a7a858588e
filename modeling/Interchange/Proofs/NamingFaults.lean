import Interchange.Proofs.ExclusionRuns
import Interchange.Proofs.PartOrder

/-! Faults of naming. Nothing leaves an exchangeable set without its owners, so the parts that a name is made of are in
the set, and the rules are asked about its types only. The first type that a rule has no good name for ends the naming. -/

namespace Interchange

namespace Text

theorem isBlank_append (first second : String) : isBlank (first ++ second) = (isBlank first && isBlank second) := by
  simp [isBlank]

/-- A text that starts with letters stays one, whatever is appended. -/
theorem not_blank_append {first : String} (proper : isBlank first = false) (second : String) :
    isBlank (first ++ second) = false := by
  rw [isBlank_append, proper, Bool.false_and]

end Text

namespace Namer

variable {namer : Namer} {ty : TypeId} {shape : Shape} {table : NameTable} {parts : List (TypeId × Option String)}
  {named : List NamedPart} {dependent : Bool} {entry : NameEntry} {error : Error} {depth : Nat}

/-- The parts of an eligible type are eligible. -/
theorem parts_eligible (stable : namer.set.Stable namer.system) (found : namer.system.shape? ty = some shape)
    (eligible : namer.set.isEligible ty = true) : ∀ part ∈ namer.parts shape, namer.set.isEligible part.1 = true := by
  intro part member
  have staying : namer.set.mustLeave shape = false := by
    have stays := stable ty eligible
    rwa [ExchangeSet.leaves, found, Option.any_some] at stays
  have kept (leaving : namer.set.mustLeave shape = shape.components.any fun part => !namer.set.isEligible part)
      (component : part.1 ∈ shape.components) : namer.set.isEligible part.1 = true := by
    rw [leaving, List.any_eq_false] at staying
    simpa using staying part.1 component
  have listed := parts_foundation member
  cases shape with
  | union members =>
    obtain ⟨other, present, rfl⟩ := List.mem_map.mp member
    exact (List.mem_filter.mp present).2
  | any | basic | enumeration | record | primary | abstraction => cases member
  | secondary | tuple | array | list | set | dictionary => exact kept rfl listed

section Guard

def asksInside (namer : Namer) (ty : TypeId) (parts : List NamedPart) : Bool :=
  namer.set.isEligible ty && parts.all fun part => namer.set.isEligible part.ty

theorem namedParts_types {lookup : Lookup} {later : NameTable}
    (listed : namedParts lookup table parts = .ok (named, dependent, later)) : named.map NamedPart.ty = parts.map Prod.fst := by
  induction parts generalizing table named dependent with
  | nil =>
    cases listed
    rfl
  | cons part rest ih =>
    obtain ⟨ty, label⟩ := part
    cases looked : lookup table ty with
    | error error => simp [namedParts, looked, bind, Except.bind] at listed
    | ok result =>
      cases others : namedParts lookup result.2 rest with
      | error error => simp [namedParts, looked, others, bind, Except.bind] at listed
      | ok more =>
        simp only [namedParts, looked, others, bind, Except.bind, pure, Except.pure] at listed
        cases listed
        rw [List.map_cons, List.map_cons, ih others]

/-- Only eligible types are looked up, if all the parts of such a type are eligible. -/
theorem inside_warrants (stable : namer.set.Stable namer.system) :
    namer.Warrants (fun _ => namer.asksInside) (fun _ ty => namer.set.isEligible ty = true) where
  parts := fun _ _ _ eligible found => parts_eligible stable found eligible
  kept := fun _ _ _ _ _ _ _ eligible => eligible
  watched := by
    intro depth table ty shape named dependent later eligible found _ listed
    rw [asksInside, eligible, Bool.true_and, List.all_eq_true]
    intro part member
    have typed : part.ty ∈ (namer.parts shape).map Prod.fst := namedParts_types listed ▸ List.mem_map_of_mem member
    obtain ⟨origin, present, same⟩ := List.mem_map.mp typed
    exact same ▸ parts_eligible stable found eligible origin present

end Guard

inductive Refused (display : String) (kind : Kind) : Option String → Error → Prop where
  | unsupported : Refused display kind none (.unsupportedShape display kind)
  | blank {name : String} (blank : Text.isBlank name = true) : Refused display kind (some name) (.invalidName display name)

/-- The type itself is at fault: its parts have names, but no good name comes of them. The name without nulls is looked
at first. -/
inductive Fault (namer : Namer) (ty : TypeId) : Error → Prop where
  | name {shape : Shape} {parts : List NamedPart} {dependent : Bool} {display : String} {error : Error}
      (found : namer.system.shape? ty = some shape) (named : plainParts namer.plain (namer.parts shape) = .ok (parts, dependent))
      (shown : namer.system.display? ty = some display)
      (refused : Refused display shape.kind (namer.naming.nameShape ⟨namer.system, namer.config, ty⟩ shape parts) error) :
      Fault namer ty error
  | nullable {shape : Shape} {parts : List NamedPart} {dependent : Bool} {name display : String} {error : Error}
      (found : namer.system.shape? ty = some shape) (named : plainParts namer.plain (namer.parts shape) = .ok (parts, dependent))
      (answer : namer.naming.nameShape ⟨namer.system, namer.config, ty⟩ shape parts = some name)
      (proper : Text.isBlank name = false) (shown : namer.system.display? ty.orNull = some display)
      (refused : Refused display shape.kind (namer.naming.nullable ⟨namer.system, namer.config, ty⟩ name) error) :
      Fault namer ty error

theorem Refused.shown {display shown name : String} {kind : Kind} {answer : Option String}
    (refused : Refused display kind answer (.invalidName shown name)) : display = shown := by
  cases answer with
  | none => cases refused
  | some given =>
    cases refused
    rfl

theorem Fault.shown {shown name : String} (fault : namer.Fault ty (.invalidName shown name)) :
    namer.system.display? ty = some shown ∨ namer.system.display? ty.orNull = some shown := by
  cases fault with
  | name _ _ displayed refused => exact .inl (refused.shown ▸ displayed)
  | nullable _ _ _ _ displayed refused => exact .inr (refused.shown ▸ displayed)

theorem check_eq_ok_iff {answer : Option String} {name : String} :
    namer.check ty shape answer = .ok name ↔ answer = some name ∧ Text.isBlank name = false := by
  cases answer with
  | none => simp [check]
  | some given =>
    simp only [check]
    split
    next blank =>
      constructor
      · intro failed
        cases failed
      · intro fine
        cases fine.1
        rw [blank] at fine
        cases fine.2
    next proper =>
      rw [Except.ok.injEq, Option.some.injEq]
      exact ⟨fun same => ⟨same, same ▸ by simpa using proper⟩, fun fine => fine.1⟩

theorem check_eq_error_iff {answer : Option String} {display : String} (shown : namer.system.display? ty = some display) :
    namer.check ty shape answer = .error error ↔ Refused display shape.kind answer error := by
  constructor
  · intro failed
    cases answer with
    | none =>
      rw [check, shown] at failed
      cases failed
      exact .unsupported
    | some given =>
      rw [check, shown] at failed
      split at failed
      next blank =>
        cases failed
        exact .blank blank
      next => cases failed
  · intro refused
    cases refused with
    | unsupported => rw [check, shown, Option.getD_some]
    | blank blank => rw [check, shown, Option.getD_some, if_pos blank]

theorem makeEntry_eq_error_iff : namer.makeEntry ty shape named dependent = .error error ↔
    namer.check ty shape (namer.naming.nameShape ⟨namer.system, namer.config, ty⟩ shape named) = .error error ∨
    ∃ name, namer.check ty shape (namer.naming.nameShape ⟨namer.system, namer.config, ty⟩ shape named) = .ok name ∧
      namer.check ty.orNull shape (namer.naming.nullable ⟨namer.system, namer.config, ty⟩ name) = .error error := by
  simp only [makeEntry, bind, Except.bind, pure, Except.pure]
  cases namer.check ty shape (namer.naming.nameShape ⟨namer.system, namer.config, ty⟩ shape named) with
  | error other => simp
  | ok name =>
    cases second : namer.check ty.orNull shape (namer.naming.nullable ⟨namer.system, namer.config, ty⟩ name) with
    | error other => simp [second]
    | ok nullableName => simp [second]

theorem makeEntry_ok (made : namer.makeEntry ty shape named dependent = .ok entry) :
    (namer.naming.nameShape ⟨namer.system, namer.config, ty⟩ shape named = some entry.name ∧
      Text.isBlank entry.name = false) ∧
    namer.naming.nullable ⟨namer.system, namer.config, ty⟩ entry.name = some entry.nullableName ∧
      Text.isBlank entry.nullableName = false := by
  simp only [makeEntry, bind, Except.bind, pure, Except.pure] at made
  split at made
  · cases made
  next name first =>
    split at made
    · cases made
    next nullableName second =>
      cases made
      exact ⟨check_eq_ok_iff.mp first, check_eq_ok_iff.mp second⟩

/-- Where the parts have names, the type itself is at fault or gets a name. -/
theorem fault_iff (sound : namer.system.catalog.Sound) (plain : ty.nullable = false)
    (found : namer.system.shape? ty = some shape)
    (parts : plainParts namer.plain (namer.parts shape) = .ok (named, dependent)) :
    namer.Fault ty error ↔ namer.plain ty = .error error := by
  have inside : namer.system.catalog.contains ty = true := Catalog.contains_of_shape found
  obtain ⟨unfolded, shown, -⟩ := sound.displayEnds ty inside
  obtain ⟨nullable, also, -⟩ := sound.displayEnds ty.orNull inside
  rw [plain_eq found, parts]
  change _ ↔ namer.makeEntry ty.nonNull shape named dependent = .error error
  rw [TypeId.nonNull_of_plain plain, makeEntry_eq_error_iff, check_eq_error_iff shown]
  simp only [check_eq_error_iff also, check_eq_ok_iff]
  constructor
  · intro fault
    cases fault with
    | name again listed display refused =>
      cases found.symm.trans again
      cases parts.symm.trans listed
      cases shown.symm.trans display
      exact .inl refused
    | nullable again listed answer proper display refused =>
      cases found.symm.trans again
      cases parts.symm.trans listed
      cases also.symm.trans display
      exact .inr ⟨_, ⟨answer, proper⟩, refused⟩
  · intro reasons
    rcases reasons with refused | ⟨name, ⟨answer, proper⟩, refused⟩
    · exact .name found parts shown refused
    · exact .nullable found parts answer proper also refused

theorem Fault.plain_error (sound : namer.system.catalog.Sound) (plain : ty.nullable = false) (fault : namer.Fault ty error) :
    namer.plain ty = .error error := by
  cases id fault with
  | name found parts | nullable found parts => exact (fault_iff sound plain found parts).mp fault

theorem plainParts_named {plain : TypeId → Except Error NameEntry}
    (each : ∀ part ∈ parts, ∃ entry, plain part.1 = .ok entry) : ∃ named dependent, plainParts plain parts = .ok (named, dependent) := by
  induction parts with
  | nil => exact ⟨[], false, rfl⟩
  | cons part rest ih =>
    obtain ⟨entry, own⟩ := each part (by simp)
    obtain ⟨named, dependent, others⟩ := ih fun other member => each other (by simp [member])
    refine ⟨⟨part.1, entry.nameOf part.1, part.2⟩ :: named, entry.subsetDependent || dependent, ?_⟩
    simp only [plainParts, own, others, bind, Except.bind, pure, Except.pure]

theorem shape_of_eligible (capacity : namer.set.capacity = namer.system.size) (eligible : namer.set.isEligible ty = true) :
    ∃ shape, namer.system.shape? ty = some shape := by
  have inside := ExchangeSet.inside_of_eligible eligible
  exact Catalog.shape_of_contains (Catalog.contains_iff.mpr (Nat.lt_of_lt_of_eq inside capacity))

section Stable

variable (sound : namer.system.catalog.Sound) (stable : namer.set.Stable namer.system)
  (capacity : namer.set.capacity = namer.system.size)

include sound stable capacity

/-- If the older types of the set have names, only the type itself can be at fault. -/
theorem fault_iff_of_older (plain : ty.nullable = false) (eligible : namer.set.isEligible ty = true)
    (older : ∀ other, namer.set.isEligible other = true → other.pair < ty.pair → ∃ entry, namer.plain other = .ok entry) :
    namer.Fault ty error ↔ namer.plain ty = .error error := by
  obtain ⟨shape, found⟩ := shape_of_eligible capacity eligible
  have each : ∀ part ∈ namer.parts shape, ∃ entry, namer.plain part.1 = .ok entry := by
    intro part member
    exact older part.1 (parts_eligible stable found eligible part member) (part_before sound found member)
  obtain ⟨named, dependent, parts⟩ := plainParts_named each
  exact fault_iff sound plain found parts

/-- Where no type is at fault, every type gets a name. -/
theorem named_of_faultless {bound : Nat}
    (faultless : ∀ other error, other.nullable = false → namer.set.isEligible other = true → other.pair < bound →
      ¬ namer.Fault other error)
    (eligible : namer.set.isEligible ty = true) (below : ty.pair < bound) : ∃ entry, namer.plain ty = .ok entry := by
  generalize position : ty.pair = pair at below
  induction pair using Nat.strongRecOn generalizing ty with
  | ind pair ih =>
    subst position
    have older : ∀ other, namer.set.isEligible other = true → other.pair < ty.pair → ∃ entry, namer.plain other = .ok entry :=
      fun other inside before => ih other.pair before inside rfl (Nat.lt_trans before below)
    have own : namer.set.isEligible ty.nonNull = true := eligible
    obtain ⟨shape, found⟩ := shape_of_eligible capacity eligible
    cases outcome : namer.plain ty with
    | ok entry => exact ⟨entry, rfl⟩
    | error error =>
      rw [← plain_of_pair found (show ty.nonNull.pair = ty.pair from rfl)] at outcome
      have fault := (fault_iff_of_older sound stable capacity rfl own older).mpr outcome
      exact absurd fault (faultless ty.nonNull error rfl own below)

end Stable
end Namer

namespace ExchangeSet

variable {set : ExchangeSet} {ty : TypeId}

/-- The first answer of a search through the types of a set. -/
theorem findSome?_types_iff {α : Type} {found : TypeId → Option α} {value : α} :
    set.types.findSome? found = some value ↔ ∃ ty ∈ set.types, found ty = some value ∧
      ∀ other ∈ set.types, other.pair < ty.pair → found other = none := by
  have sorted := types_ordered set
  rw [List.findSome?_eq_some_iff]
  constructor
  · intro split
    obtain ⟨before, ty, after, split, answer, none⟩ := split
    refine ⟨ty, by simp [split], answer, ?_⟩
    intro other member earlier
    rw [split] at member sorted
    have later := (List.pairwise_cons.mp (List.pairwise_append.mp sorted).2.1).1
    rcases List.mem_append.mp member with member | member
    · exact none other member
    · rcases List.mem_cons.mp member with rfl | member
      · exact absurd earlier (Nat.lt_irrefl _)
      · exact absurd earlier (Nat.lt_asymm (later other member))
  · intro first
    obtain ⟨ty, member, answer, none⟩ := first
    obtain ⟨before, after, split⟩ := List.append_of_mem member
    refine ⟨before, ty, after, split, answer, ?_⟩
    intro other earlier
    have ordered := (List.pairwise_append.mp (split ▸ sorted)).2.2
    exact none other (by simp [split, earlier]) (ordered other earlier ty List.mem_cons_self)

end ExchangeSet

namespace NameMap

open Namer

/-- The names of a set, found without asking the rules about a type outside of it. -/
def askedBuild (system : System) (naming : Naming) (config : Config) (set : ExchangeSet) : Guarded NameMap :=
  watchedTable (fun _ => asksInside ⟨system, naming, config, set⟩) ⟨system, naming, config, set⟩ (.empty system.size)

variable {system : System} {naming : Naming} {config : Config} {set : ExchangeSet} {error : Error}

theorem askedBuild_eq (stable : set.Stable system) :
    askedBuild system naming config set = reach (build system naming config set) :=
  watchedTable_eq (@inside_warrants ⟨system, naming, config, set⟩ stable) fun _ member => (ExchangeSet.mem_types.mp member).2

/-- The naming ends at the eligible type of the least pair that is at fault. -/
theorem build_eq_error_iff (sound : system.catalog.Sound) (stable : set.Stable system) (capacity : set.capacity = system.size) :
    build system naming config set = .error error ↔ ∃ ty ∈ set.types, Fault ⟨system, naming, config, set⟩ ty error ∧
      ∀ other ∈ set.types, other.pair < ty.pair → ∀ error, ¬ Fault ⟨system, naming, config, set⟩ other error := by
  let namer : Namer := ⟨system, naming, config, set⟩
  have searched : build system naming config set = .error error ↔ set.types.findSome? namer.failure? = some error := by
    have failure : failure? namer = set.types.findSome? namer.failure? := if_pos capacity
    rw [← failure]
    rcases ofTable_agrees (Memo.empty namer) with ⟨map, made, none, -⟩ | ⟨other, failed, failing⟩
    · rw [none, show build system naming config set = .ok map from made]
      simp
    · rw [failing, show build system naming config set = .error other from failed, Except.error.injEq, Option.some.injEq]
  have failure_iff {ty : TypeId} {error : Error} : namer.failure? ty = some error ↔ namer.plain ty = .error error := by
    rw [Namer.failure?]
    cases namer.plain ty <;> simp
  rw [searched, ExchangeSet.findSome?_types_iff]
  constructor
  · intro first
    obtain ⟨ty, member, failed, older⟩ := first
    obtain ⟨plain, eligible⟩ := ExchangeSet.mem_types.mp member
    refine ⟨ty, member, ?_, ?_⟩
    · refine (fault_iff_of_older sound stable capacity plain eligible ?_).mpr (failure_iff.mp failed)
      intro other inside before
      have none := older other.nonNull (ExchangeSet.mem_types.mpr ⟨rfl, inside⟩) before
      obtain ⟨shape, found⟩ := @shape_of_eligible namer other capacity inside
      rw [Namer.failure?, plain_of_pair found (show other.nonNull.pair = other.pair from rfl)] at none
      cases outcome : namer.plain other with
      | ok entry => exact ⟨entry, rfl⟩
      | error error => simp [outcome] at none
    · intro other listed before error fault
      have failing := failure_iff.mpr (fault.plain_error sound (ExchangeSet.mem_types.mp listed).1)
      rw [older other listed before] at failing
      cases failing
  · intro first
    obtain ⟨ty, member, fault, older⟩ := first
    refine ⟨ty, member, failure_iff.mpr (fault.plain_error sound (ExchangeSet.mem_types.mp member).1), ?_⟩
    intro other listed before
    have faultless : ∀ other error, other.nullable = false → namer.set.isEligible other = true → other.pair < ty.pair →
        ¬ namer.Fault other error :=
      fun other error plain inside earlier => older other (ExchangeSet.mem_types.mpr ⟨plain, inside⟩) earlier error
    obtain ⟨entry, named⟩ :=
      named_of_faultless sound stable capacity faultless (ExchangeSet.mem_types.mp listed).2 before
    rw [Namer.failure?, named]

/-- The naming fails if any eligible type is at fault. -/
theorem build_fails_iff (sound : system.catalog.Sound) (stable : set.Stable system) (capacity : set.capacity = system.size) :
    (∃ error, build system naming config set = .error error) ↔
      ∃ ty ∈ set.types, ∃ error, Fault ⟨system, naming, config, set⟩ ty error := by
  constructor
  · intro failed
    obtain ⟨error, failed⟩ := failed
    obtain ⟨ty, member, fault, -⟩ := (build_eq_error_iff sound stable capacity).mp failed
    exact ⟨ty, member, error, fault⟩
  · intro faulty
    obtain ⟨ty, member, error, fault⟩ := faulty
    generalize position : ty.pair = pair
    induction pair using Nat.strongRecOn generalizing ty error with
    | ind pair ih =>
      by_cases earlier : ∃ other ∈ set.types, other.pair < ty.pair ∧ ∃ error, Fault ⟨system, naming, config, set⟩ other error
      · obtain ⟨other, listed, before, error, fault⟩ := earlier
        exact ih other.pair (position ▸ before) other listed error fault rfl
      · refine ⟨error, (build_eq_error_iff sound stable capacity).mpr ⟨ty, member, fault, ?_⟩⟩
        intro other listed before error fault
        exact earlier ⟨other, listed, before, error, fault⟩

end NameMap
end Interchange
