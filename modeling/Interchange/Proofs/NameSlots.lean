import Interchange.Proofs.NameMapReuse

/-! The slots of a name table. Parts are older than what is built from them, so the naming of a type ends, and
nothing but the type itself writes into its slot. -/

namespace Interchange

namespace NameTable

def isVacant (table : NameTable) (ty : TypeId) : Bool :=
  decide (ty.pair < table.entries.size) && (table.get? ty).isNone

/-- The later table has the same slots, and those from the bound on have not been touched. -/
structure SameFrom (bound : Nat) (table later : NameTable) : Prop where
  size : later.entries.size = table.entries.size
  slots : ∀ ty : TypeId, bound ≤ ty.pair → later.get? ty = table.get? ty

namespace SameFrom

variable {bound wider : Nat} {table middle later : NameTable} {ty : TypeId}

theorem refl (bound : Nat) (table : NameTable) : SameFrom bound table table :=
  ⟨rfl, fun _ _ => rfl⟩

theorem trans (first : SameFrom bound table middle) (second : SameFrom bound middle later) : SameFrom bound table later :=
  ⟨second.size.trans first.size, fun ty beyond => (second.slots ty beyond).trans (first.slots ty beyond)⟩

theorem widen (same : SameFrom bound table later) (more : bound ≤ wider) : SameFrom wider table later :=
  ⟨same.size, fun ty beyond => same.slots ty (Nat.le_trans more beyond)⟩

theorem insert (same : SameFrom bound table later) (below : ty.pair < bound) (entry : NameEntry) :
    SameFrom bound table (later.insert ty entry) := by
  constructor
  · simpa [NameTable.insert] using same.size
  · intro other beyond
    have apart : ty.pair ≠ other.pair := by omega
    rw [← same.slots other beyond, get?, get?, NameTable.insert, Array.getElem?_setIfInBounds_ne apart]

end SameFrom
end NameTable

namespace Namer

variable {namer : Namer} {ty : TypeId} {shape : Shape} {table later : NameTable} {entry : NameEntry} {depth bound : Nat}
  {parts : List (TypeId × Option String)} {lookup : Lookup}

theorem namedParts_same {named : List NamedPart} {dependent : Bool}
    (each : ∀ part ∈ parts, ∀ table entry later, lookup table part.1 = .ok (entry, later) → NameTable.SameFrom bound table later)
    (listed : namedParts lookup table parts = .ok (named, dependent, later)) : NameTable.SameFrom bound table later := by
  induction parts generalizing table named dependent with
  | nil =>
    cases listed
    exact .refl bound _
  | cons part rest ih =>
    obtain ⟨ty, label⟩ := part
    cases looked : lookup table ty with
    | error error => simp [namedParts, looked, bind, Except.bind] at listed
    | ok result =>
      cases others : namedParts lookup result.2 rest with
      | error error => simp [namedParts, looked, others, bind, Except.bind] at listed
      | ok more =>
        simp only [namedParts, looked, others, bind, Except.bind, pure, Except.pure] at listed
        cases listed
        have first := each (ty, label) (by simp) table result.1 result.2 looked
        exact first.trans (ih (fun other member => each other (by simp [member])) others)

/-- Naming a type writes into its own slot and into older ones. -/
theorem entryWithin_same (sound : namer.system.catalog.Sound) (named : namer.entryWithin depth table ty = .ok (entry, later)) :
    NameTable.SameFrom (ty.pair + 1) table later := by
  induction depth generalizing ty table entry later with
  | zero => cases named
  | succ depth ih =>
    simp only [entryWithin] at named
    split at named
    · cases named
      exact .refl _ table
    · split at named
      · cases named
      next shape found =>
        cases listed : namedParts (namer.entryWithin depth) table (namer.parts shape) with
        | error error => simp [listed, bind, Except.bind] at named
        | ok result =>
          cases made : namer.makeEntry ty.nonNull shape result.1 result.2.1 with
          | error error => simp [listed, made, bind, Except.bind] at named
          | ok entry =>
            simp only [listed, made, bind, Except.bind, pure, Except.pure] at named
            cases named
            have inner : NameTable.SameFrom ty.pair table result.2.2 := by
              refine namedParts_same ?_ listed
              intro part member table entry later looked
              exact (ih looked).widen (part_before sound found member)
            exact (inner.widen (Nat.le_succ _)).insert (Nat.lt_succ_self _) _

theorem namedParts_congr {first second : Lookup} (same : ∀ part ∈ parts, ∀ table, first table part.1 = second table part.1)
    (table : NameTable) : namedParts first table parts = namedParts second table parts := by
  induction parts generalizing table with
  | nil => rfl
  | cons part rest ih =>
    have others := ih fun other member => same other (by simp [member])
    simp only [namedParts, same part (by simp), others]

/-- Any depth beyond the pair of a type is enough to name it. -/
theorem entryWithin_eq (sound : namer.system.catalog.Sound) {first second : Nat} (one : ty.pair < first) (two : ty.pair < second)
    (table : NameTable) : namer.entryWithin first table ty = namer.entryWithin second table ty := by
  induction first generalizing second ty table with
  | zero => omega
  | succ first ih =>
    cases second with
    | zero => omega
    | succ second =>
      simp only [entryWithin]
      cases table.get? ty with
      | some entry => rfl
      | none =>
        cases found : namer.system.shape? ty with
        | none => rfl
        | some shape =>
          have same := @namedParts_congr (namer.parts shape) (namer.entryWithin first) (namer.entryWithin second) (by
            intro part member table
            have before := part_before sound found member
            exact ih (by omega) (by omega) table) table
          simp only [same]

theorem namedParts_error {error : Error} (failed : namedParts lookup table parts = .error error) :
    ∃ part ∈ parts, ∃ table, lookup table part.1 = .error error := by
  induction parts generalizing table with
  | nil => cases failed
  | cons part rest ih =>
    obtain ⟨ty, label⟩ := part
    cases looked : lookup table ty with
    | error other =>
      simp only [namedParts, looked, bind, Except.bind] at failed
      cases failed
      exact ⟨(ty, label), by simp, table, looked⟩
    | ok result =>
      cases others : namedParts lookup result.2 rest with
      | error other =>
        simp only [namedParts, looked, others, bind, Except.bind] at failed
        cases failed
        obtain ⟨part, member, failing⟩ := ih others
        exact ⟨part, by simp [member], failing⟩
      | ok more => simp [namedParts, looked, others, bind, Except.bind, pure, Except.pure] at failed

/-- The rules are at fault if a type whose parts have names gets none. -/
theorem makeEntry_error {named : List NamedPart} {dependent : Bool} {tag : String} :
    namer.makeEntry ty shape named dependent ≠ .error (.notInSubset tag) := by
  have checked (ty : TypeId) (name : Option String) : namer.check ty shape name ≠ .error (.notInSubset tag) := by
    cases name with
    | none => simp [check]
    | some name =>
      simp only [check]
      split <;> simp
  intro failed
  simp only [makeEntry, bind, Except.bind, pure, Except.pure] at failed
  split at failed
  next error first =>
    cases failed
    exact checked _ _ first
  next =>
    split at failed
    next error second =>
      cases failed
      exact checked _ _ second
    next => cases failed

/-- The naming of a registered type ends with a name, or with a fault of the rules. -/
theorem entryWithin_ends (sound : namer.system.catalog.Sound) (inside : namer.system.contains ty = true) (deep : ty.pair < depth)
    (tag : String) : namer.entryWithin depth table ty ≠ .error (.notInSubset tag) := by
  induction depth generalizing ty table with
  | zero => omega
  | succ depth ih =>
    intro failed
    obtain ⟨shape, found⟩ := Catalog.shape_of_contains inside
    have present : namer.system.shape? ty = some shape := found
    simp only [entryWithin, present] at failed
    split at failed
    · cases failed
    · cases listed : namedParts (namer.entryWithin depth) table (namer.parts shape) with
      | error error =>
        simp only [listed, bind, Except.bind] at failed
        cases failed
        obtain ⟨part, member, table, failing⟩ := namedParts_error listed
        have before := part_before sound present member
        have known := sound.mentioned found (Shape.foundation_mentioned (parts_foundation member))
        exact ih known (by omega) failing
      | ok result =>
        cases made : namer.makeEntry ty.nonNull shape result.1 result.2.1 with
        | error error =>
          simp only [listed, made, bind, Except.bind] at failed
          cases failed
          exact makeEntry_error made
        | ok entry => simp [listed, made, bind, Except.bind, pure, Except.pure] at failed

/-- Every type is named, or the rules are at fault, alike with any number of levels beyond its pair. -/
def NamingEnds (namer : Namer) : Prop :=
  ∀ table ty, namer.system.contains ty = true → ∃ outcome, (∀ tag, outcome ≠ .error (.notInSubset tag)) ∧
    ∀ depth, ty.pair < depth → namer.entryWithin depth table ty = outcome

theorem namingEnds (sound : namer.system.catalog.Sound) : namer.NamingEnds := by
  intro table ty inside
  have enough := Nat.lt_succ_self ty.pair
  exact ⟨_, fun tag => entryWithin_ends sound inside enough tag, fun depth deep => entryWithin_eq sound deep enough table⟩

section Watched

/-- A computation that stops short (nothing) where what is watched for does not hold. -/
abbrev Guarded (α : Type) := ExceptT Error Option α

/-- What is watched for when a rule is about to be asked: the table at that time, the type and its named parts. -/
abbrev Watch := NameTable → TypeId → List NamedPart → Bool

/-- An outcome that is reached without stopping short. -/
def reach {α : Type} (outcome : Except Error α) : Guarded α :=
  ExceptT.mk (some outcome)

theorem reach_ok_bind {α β : Type} (value : α) (next : α → Guarded β) : (reach (.ok value) >>= next) = next value :=
  rfl

theorem reach_bind {α β : Type} (outcome : Except Error α) (next : α → Except Error β) :
    reach (outcome >>= next) = reach outcome >>= fun value => reach (next value) := by
  cases outcome <;> rfl

def watchedParts (lookup : NameTable → TypeId → Guarded (NameEntry × NameTable)) :
    NameTable → List (TypeId × Option String) → Guarded (List NamedPart × Bool × NameTable)
  | table, [] => return ([], false, table)
  | table, (ty, label) :: rest => do
    let (entry, table) ← lookup table ty
    let (parts, dependent, table) ← watchedParts lookup table rest
    return (⟨ty, entry.nameOf ty, label⟩ :: parts, entry.subsetDependent || dependent, table)

/-- Naming with a look at what is watched for, before a rule is asked and its answer written. -/
def watchedWithin (namer : Namer) (watch : Watch) : Nat → NameTable → TypeId → Guarded (NameEntry × NameTable)
  | 0, _, _ => throw endless
  | depth + 1, table, ty =>
    match table.get? ty with
    | some entry => return (entry, table)
    | none =>
      match namer.system.shape? ty with
      | none => throw (.notInSubset ty.tag)
      | some shape => do
        let (parts, dependent, table) ← watchedParts (namer.watchedWithin watch depth) table (namer.parts shape)
        if watch table ty parts then
          let entry ← reach (namer.makeEntry ty.nonNull shape parts dependent)
          return (entry, table.insert ty entry)
        else liftM (none : Option (NameEntry × NameTable))

def watchedAll (namer : Namer) (watch : Watch) (table : NameTable) : Guarded NameTable :=
  namer.set.types.foldlM (fun table ty => return (← namer.watchedWithin watch (namer.system.size + 1) table ty).2) table

/-- Why a watched run never stops short. Something holds whenever a type is looked up: for its parts as well, and still when
others have been looked up. Where it holds, what is watched for does. -/
structure Warrants (namer : Namer) (watch : Watch) (holds : NameTable → TypeId → Prop) : Prop where
  parts : ∀ table ty shape, holds table ty → namer.system.shape? ty = some shape → ∀ part ∈ namer.parts shape, holds table part.1
  kept : ∀ depth table ty entry later, namer.entryWithin depth table ty = .ok (entry, later) →
    ∀ other, holds table other → holds later other
  watched : ∀ depth table ty shape named dependent later, holds table ty → namer.system.shape? ty = some shape →
    table.get? ty = none → namedParts (namer.entryWithin depth) table (namer.parts shape) = .ok (named, dependent, later) →
    watch later ty named = true

variable {watch : Watch} {holds : NameTable → TypeId → Prop}

theorem watchedParts_eq (warrants : namer.Warrants watch holds) (each : ∀ part ∈ parts, holds table part.1)
    (same : ∀ table ty, holds table ty → namer.watchedWithin watch depth table ty = reach (namer.entryWithin depth table ty)) :
    watchedParts (namer.watchedWithin watch depth) table parts = reach (namedParts (namer.entryWithin depth) table parts) := by
  induction parts generalizing table with
  | nil => rfl
  | cons part rest ih =>
    obtain ⟨ty, label⟩ := part
    rw [watchedParts, namedParts, same table ty (each (ty, label) List.mem_cons_self), reach_bind]
    cases looked : namer.entryWithin depth table ty with
    | error error => rfl
    | ok result =>
      obtain ⟨entry, later⟩ := result
      have others := ih fun other member =>
        warrants.kept depth table ty entry later looked other.1 (each other (List.mem_cons_of_mem _ member))
      rw [reach_ok_bind, reach_ok_bind]
      simp only
      rw [others, reach_bind]
      rfl

theorem watchedWithin_eq (warrants : namer.Warrants watch holds) (ready : holds table ty) :
    namer.watchedWithin watch depth table ty = reach (namer.entryWithin depth table ty) := by
  induction depth generalizing ty table with
  | zero => rfl
  | succ depth ih =>
    simp only [watchedWithin, entryWithin]
    cases empty : table.get? ty with
    | some entry => rfl
    | none =>
      cases found : namer.system.shape? ty with
      | none => rfl
      | some shape =>
        simp only [watchedParts_eq warrants (warrants.parts table ty shape ready found) fun table ty => ih]
        cases listed : namedParts (namer.entryWithin depth) table (namer.parts shape) with
        | error error => rfl
        | ok result =>
          obtain ⟨named, dependent, later⟩ := result
          have seen := warrants.watched depth table ty shape named dependent later ready found empty listed
          rw [reach_ok_bind]
          simp only [seen, ↓reduceIte, reach_bind, reach_ok_bind]
          rfl

theorem watchedAll_eq (warrants : namer.Warrants watch holds) (ready : ∀ ty ∈ namer.set.types, holds table ty) :
    namer.watchedAll watch table = reach (namer.nameAll table) := by
  rw [watchedAll, nameAll]
  generalize namer.set.types = types at ready
  induction types generalizing table with
  | nil => rfl
  | cons ty rest ih =>
    rw [List.foldlM_cons, List.foldlM_cons, watchedWithin_eq warrants (ready ty List.mem_cons_self), entry]
    cases named : namer.entryWithin (namer.system.size + 1) table ty with
    | error error => rfl
    | ok result =>
      exact ih fun other member =>
        warrants.kept _ table ty result.1 result.2 named other (ready other (List.mem_cons_of_mem _ member))

end Watched

/-- The slot of a type is empty until the type itself has got its names. -/
theorem vacant_warrants (sound : namer.system.catalog.Sound) : namer.Warrants (fun table ty _ => table.isVacant ty)
    (fun table _ => table.entries.size = namer.system.size) where
  parts := fun _ _ _ sized _ _ _ => sized
  kept := fun _ _ _ _ _ looked _ sized => (entryWithin_same sound looked).size.trans sized
  watched := by
    intro depth table ty shape named dependent later sized found empty listed
    have same : NameTable.SameFrom ty.pair table later := by
      refine namedParts_same ?_ listed
      intro part member table entry later looked
      exact (entryWithin_same sound looked).widen (part_before sound found member)
    have inside : ty.pair < later.entries.size := by
      rw [same.size, sized]
      exact Catalog.contains_iff.mp (Catalog.contains_of_shape found)
    have still : later.get? ty = none := (same.slots ty (Nat.le_refl _)).trans empty
    simp [NameTable.isVacant, inside, still]

end Namer

namespace NameMap

open Namer

def watchedTable (watch : Watch) (namer : Namer) (table : NameTable) : Guarded NameMap := do
  if namer.set.capacity = namer.system.size then
    let table ← namer.watchedAll watch table
    return ⟨namer, table, number namer.system.size namer.set.types, SupportShape.collect namer.system namer.set⟩
  else throw .foreignSubset

/-- The names of a set, found with a look at each slot before it is written. -/
def guardedBuild (system : System) (naming : Naming) (config : Config) (set : ExchangeSet) : Guarded NameMap :=
  watchedTable (fun table ty _ => table.isVacant ty) ⟨system, naming, config, set⟩ (.empty system.size)

def guardedSubset (map : NameMap) (set : ExchangeSet) : Guarded NameMap :=
  watchedTable (fun table ty _ => table.isVacant ty) { map.namer with set } map.table.reusable

variable {namer : Namer} {table : NameTable} {map : NameMap} {system : System} {naming : Naming} {config : Config} {watch : Watch}
  {holds : NameTable → TypeId → Prop}

theorem watchedTable_eq (warrants : namer.Warrants watch holds) (ready : ∀ ty ∈ namer.set.types, holds table ty) :
    watchedTable watch namer table = reach (ofTable namer table) := by
  by_cases capacity : namer.set.capacity = namer.system.size
  · simp only [watchedTable, ofTable, capacity, ↓reduceIte, watchedAll_eq warrants ready]
    cases namer.nameAll table <;> rfl
  · simp only [watchedTable, ofTable, capacity, ↓reduceIte]
    rfl

theorem guardedBuild_eq (sound : system.catalog.Sound) (set : ExchangeSet) :
    guardedBuild system naming config set = reach (build system naming config set) :=
  watchedTable_eq (vacant_warrants sound) fun _ _ => (Memo.empty ⟨system, naming, config, set⟩).sized

theorem guardedSubset_eq (sound : system.catalog.Sound) (chain : Chain system naming config map) (set : ExchangeSet) :
    map.guardedSubset set = reach (map.withSubset set) := by
  obtain ⟨old, complete⟩ := chain.complete
  have sized := (complete.memo.reusable set).sized
  rw [guardedSubset, withSubset, complete.same]
  exact watchedTable_eq (vacant_warrants sound) fun _ _ => sized

end NameMap
end Interchange
