import Interchange.NameMap
import Interchange.Proofs.ExclusionFixedPoint
import Interchange.Proofs.NamingRules
import Mathlib.Data.List.Basic

/-! A table of names that is carried from one subset to the next. What is kept of it
agrees with the rules alone, so a map made from it is the map made from nothing. -/

namespace Interchange

namespace NameTable

variable {table : NameTable} {ty other : TypeId} {entry : NameEntry}

theorem get?_of_pair {first second : TypeId} (same : first.pair = second.pair) : table.get? first = table.get? second := by
  simp only [get?, same]

@[simp] theorem empty_get? (pairs : Nat) : (empty pairs).get? ty = none := by
  simp only [empty, get?, Array.getElem?_replicate]
  split <;> rfl

theorem insert_get? (inside : ty.pair < table.entries.size) :
    (table.insert ty entry).get? other = if ty.pair = other.pair then some entry else table.get? other := by
  simp only [insert, get?, Array.getElem?_setIfInBounds]
  split
  next same => rfl
  next => rfl

theorem reusable_get? (found : table.reusable.get? ty = some entry) :
    table.get? ty = some entry ∧ entry.subsetDependent = false := by
  simp only [reusable, get?, Array.getElem?_map] at found ⊢
  cases slot : table.entries[ty.pair]? with
  | none => simp [slot] at found
  | some kept =>
    simpa [slot, Option.filter_eq_some_iff] using found

end NameTable

namespace Namer

structure Memo (namer : Namer) (table : NameTable) : Prop where
  sized : table.entries.size = namer.system.size
  faithful : ∀ ty entry, table.get? ty = some entry → namer.plain ty = .ok entry

def Keeps (table later : NameTable) : Prop :=
  ∀ ty entry, table.get? ty = some entry → later.get? ty = some entry

/-- A lookup gives the name that the rules give, and leaves it in the table; or both fail alike. -/
def Agrees (namer : Namer) (table : NameTable) (ty : TypeId) (outcome : Except Error (NameEntry × NameTable)) : Prop :=
  (∃ entry later, outcome = .ok (entry, later) ∧ namer.plain ty = .ok entry ∧ namer.Memo later ∧ Keeps table later ∧
    later.get? ty = some entry) ∨
  ∃ error, outcome = .error error ∧ namer.plain ty = .error error

variable {namer : Namer} {table : NameTable} {ty : TypeId} {entry : NameEntry}

theorem Memo.empty (namer : Namer) : namer.Memo (.empty namer.system.size) := by
  refine ⟨by simp [NameTable.empty], ?_⟩
  intro ty entry found
  rw [NameTable.empty_get?] at found
  cases found

theorem Memo.reusable (memo : namer.Memo table) (set : ExchangeSet) : Memo { namer with set } table.reusable := by
  refine ⟨by simpa [NameTable.reusable] using memo.sized, ?_⟩
  intro ty entry found
  obtain ⟨kept, independent⟩ := NameTable.reusable_get? found
  exact plain_independent (memo.faithful ty entry kept) independent set

theorem Memo.insert (memo : namer.Memo table) {shape : Shape}
    (found : namer.system.shape? ty = some shape) (named : namer.plain ty = .ok entry) :
    namer.Memo (table.insert ty entry) ∧ Keeps table (table.insert ty entry) ∧
      (table.insert ty entry).get? ty = some entry := by
  have inside : ty.pair < table.entries.size :=
    Nat.lt_of_lt_of_eq (Catalog.contains_iff.mp (Catalog.contains_of_shape found)) memo.sized.symm
  refine ⟨⟨by simpa [NameTable.insert] using memo.sized, ?_⟩, ?_, ?_⟩
  · intro other kept present
    rw [NameTable.insert_get? inside] at present
    split at present
    next same =>
      cases present
      rw [plain_of_pair found same.symm, named]
    next => exact memo.faithful other kept present
  · intro other kept present
    rw [NameTable.insert_get? inside]
    split
    next same =>
      have again := memo.faithful other kept present
      rw [plain_of_pair found same.symm, named] at again
      cases again
      rfl
    next => exact present
  · rw [NameTable.insert_get? inside]
    exact if_pos rfl

/-- The names of parts are those of the rules, or both fail alike. The third case is that neither comes to an end within
the given number of levels. -/
theorem namedParts_agrees {parts : List (TypeId × Option String)} {depth : Nat} (memo : namer.Memo table)
    (each : ∀ part ∈ parts, ∀ table, namer.Memo table → namer.Agrees table part.1 (namer.entryWithin depth table part.1) ∨
      namer.entryWithin depth table part.1 = .error endless ∧ namer.plainWithin depth part.1 = .error endless) :
    (∃ named dependent later, namedParts (namer.entryWithin depth) table parts = .ok (named, dependent, later) ∧
      plainParts namer.plain parts = .ok (named, dependent) ∧ namer.Memo later ∧ Keeps table later) ∨
    (∃ error, namedParts (namer.entryWithin depth) table parts = .error error ∧ plainParts namer.plain parts = .error error) ∨
    namedParts (namer.entryWithin depth) table parts = .error endless ∧
      plainParts (namer.plainWithin depth) parts = .error endless := by
  induction parts generalizing table with
  | nil => exact .inl ⟨[], false, table, rfl, rfl, memo, fun _ _ found => found⟩
  | cons part rest ih =>
    obtain ⟨ty, label⟩ := part
    rcases each (ty, label) (by simp) table memo with
      (⟨entry, middle, looked, named, middleMemo, first, -⟩ | ⟨error, failed, failing⟩) | ⟨failed, failing⟩
    · rcases ih middleMemo fun other member => each other (by simp [member]) with
        ⟨names, dependent, later, listed, plainly, laterMemo, second⟩ | ⟨error, failed, failing⟩ | ⟨failed, failing⟩
      · refine .inl ⟨⟨ty, entry.nameOf ty, label⟩ :: names, entry.subsetDependent || dependent, later, ?_, ?_, laterMemo,
          fun ty entry found => second ty entry (first ty entry found)⟩
        · simp only [namedParts, looked, listed, bind, Except.bind, pure, Except.pure]
        · simp only [plainParts, named, plainly, bind, Except.bind, pure, Except.pure]
      · refine .inr (.inl ⟨error, ?_, ?_⟩)
        · simp only [namedParts, looked, failed, bind, Except.bind]
        · simp only [plainParts, named, failing, bind, Except.bind]
      · refine .inr (.inr ⟨?_, ?_⟩)
        · simp only [namedParts, looked, failed, bind, Except.bind]
        -- The first part may have been in the table, while the rules alone run out of levels for it.
        · by_cases ended : namer.plainWithin depth ty = .error endless
          · simp only [plainParts, ended, bind, Except.bind]
          · rw [plain_of_ended ended] at named
            simp only [plainParts, named, failing, bind, Except.bind]
    · refine .inr (.inl ⟨error, ?_, ?_⟩)
      · simp only [namedParts, failed, bind, Except.bind]
      · simp only [plainParts, failing, bind, Except.bind]
    · refine .inr (.inr ⟨?_, ?_⟩)
      · simp only [namedParts, failed, bind, Except.bind]
      · simp only [plainParts, failing, bind, Except.bind]

theorem entryWithin_agrees {depth : Nat} (memo : namer.Memo table) :
    namer.Agrees table ty (namer.entryWithin depth table ty) ∨
      namer.entryWithin depth table ty = .error endless ∧ namer.plainWithin depth ty = .error endless := by
  induction depth generalizing ty table with
  | zero => exact .inr ⟨rfl, rfl⟩
  | succ depth ih =>
    simp only [entryWithin]
    cases known : table.get? ty with
    | some entry => exact .inl (.inl ⟨entry, table, rfl, memo.faithful ty entry known, memo, fun _ _ found => found, known⟩)
    | none =>
      cases found : namer.system.shape? ty with
      | none => exact .inl (.inr ⟨_, rfl, plain_unregistered found⟩)
      | some shape =>
        have rules := plain_eq found
        have inner := @namedParts_agrees namer table (namer.parts shape) depth memo fun part _ table memo => ih memo
        rcases inner with
          ⟨names, dependent, later, listed, plainly, laterMemo, kept⟩ | ⟨error, failed, failing⟩ | ⟨failed, failing⟩
        · simp only [plainly, bind, Except.bind] at rules
          simp only [listed, bind, Except.bind]
          cases made : namer.makeEntry ty.nonNull shape names dependent with
          | error error => exact .inl (.inr ⟨error, rfl, rules.trans made⟩)
          | ok entry =>
            obtain ⟨insertedMemo, inserted, present⟩ := laterMemo.insert found (rules.trans made)
            exact .inl (.inl ⟨entry, _, rfl, rules.trans made, insertedMemo,
              fun other kept' old => inserted other kept' (kept other kept' old), present⟩)
        · simp only [failing, bind, Except.bind] at rules
          simp only [failed, bind, Except.bind]
          exact .inl (.inr ⟨error, rfl, rules⟩)
        · refine .inr ⟨by simp only [failed, bind, Except.bind], ?_⟩
          simp only [plainWithin, found, failing, bind, Except.bind]

theorem entry_agrees (memo : namer.Memo table) (ty : TypeId) : namer.Agrees table ty (namer.entry table ty) := by
  rcases entryWithin_agrees memo with agrees | ⟨failed, failing⟩
  · exact agrees
  · exact .inr ⟨endless, failed, failing⟩

def failure? (namer : Namer) (ty : TypeId) : Option Error :=
  match namer.plain ty with
  | .error error => some error
  | .ok _ => none

theorem foldlM_agrees {types : List TypeId} (memo : namer.Memo table) :
    (∃ later, types.foldlM (fun table ty => return (← namer.entry table ty).2) table = .ok later ∧ namer.Memo later ∧
      Keeps table later ∧ types.findSome? namer.failure? = none ∧
      ∀ ty ∈ types, ∃ entry, namer.plain ty = .ok entry ∧ later.get? ty = some entry) ∨
    ∃ error, types.foldlM (fun table ty => return (← namer.entry table ty).2) table = .error error ∧
      types.findSome? namer.failure? = some error := by
  induction types generalizing table with
  | nil => exact .inl ⟨table, rfl, memo, fun _ _ found => found, rfl, by simp⟩
  | cons ty rest ih =>
    rcases entry_agrees memo ty with ⟨entry, middle, looked, named, middleMemo, first, present⟩ | ⟨error, failed, failing⟩
    · have fine : namer.failure? ty = none := by simp only [failure?, named]
      rcases ih middleMemo with
        ⟨later, folded, laterMemo, second, clean, complete⟩ | ⟨error, failed, failing⟩
      · refine .inl ⟨later, ?_, laterMemo, fun ty entry found => second ty entry (first ty entry found), ?_, ?_⟩
        · rw [List.foldlM_cons, looked]
          exact folded
        · rw [List.findSome?_cons, fine]
          exact clean
        · intro other member
          rcases List.mem_cons.mp member with rfl | member
          · exact ⟨entry, named, second other entry present⟩
          · exact complete other member
      · refine .inr ⟨error, ?_, ?_⟩
        · rw [List.foldlM_cons, looked]
          exact failed
        · rw [List.findSome?_cons, fine]
          exact failing
    · have broken : namer.failure? ty = some error := by simp only [failure?, failing]
      refine .inr ⟨error, ?_, ?_⟩
      · rw [List.foldlM_cons, failed]
        rfl
      · rw [List.findSome?_cons, broken]

end Namer

namespace NameMap

open Namer

def failure? (namer : Namer) : Option Error :=
  if namer.set.capacity = namer.system.size then namer.set.types.findSome? namer.failure? else some .foreignSubset

/-- The map holds the name of every type of the set. -/
structure Complete (namer : Namer) (map : NameMap) : Prop where
  same : map.namer = namer
  capacity : namer.set.capacity = namer.system.size
  memo : namer.Memo map.table
  named : ∀ ty ∈ namer.set.types, ∃ entry, namer.plain ty = .ok entry ∧ map.table.get? ty = some entry
  positions : map.positions = number namer.system.size namer.set.types
  support : map.support = SupportShape.collect namer.system namer.set

variable {namer : Namer} {table : NameTable} {map first second : NameMap} {ty : TypeId}

/-- A map is made if the set has the size of the system and all its types get names. -/
theorem ofTable_ok (made : ofTable namer table = .ok map) : namer.set.capacity = namer.system.size ∧
    ∃ later, namer.nameAll table = .ok later ∧
      map = ⟨namer, later, number namer.system.size namer.set.types, SupportShape.collect namer.system namer.set⟩ := by
  by_cases capacity : namer.set.capacity = namer.system.size
  · simp only [ofTable, capacity, ↓reduceIte] at made
    obtain ⟨later, named, ⟨⟩⟩ := bind_eq_ok_iff.mp made
    exact ⟨capacity, later, named, rfl⟩
  · simp only [ofTable, capacity, ↓reduceIte] at made
    cases made

theorem ofTable_agrees (memo : namer.Memo table) :
    (∃ map, ofTable namer table = .ok map ∧ failure? namer = none ∧ Complete namer map) ∨
    ∃ error, ofTable namer table = .error error ∧ failure? namer = some error := by
  by_cases capacity : namer.set.capacity = namer.system.size
  · rcases foldlM_agrees memo with ⟨later, folded, laterMemo, -, clean, complete⟩ | ⟨error, failed, failing⟩
    · have named : namer.nameAll table = .ok later := folded
      refine .inl ⟨⟨namer, later, number namer.system.size namer.set.types, SupportShape.collect namer.system namer.set⟩, ?_, ?_,
        rfl, capacity, laterMemo, complete, rfl, rfl⟩
      · simp only [ofTable, capacity, ↓reduceIte, named, bind, Except.bind, pure, Except.pure]
      · simp only [failure?, capacity, ↓reduceIte, clean]
    · have named : namer.nameAll table = .error error := failed
      refine .inr ⟨error, ?_, ?_⟩
      · simp only [ofTable, capacity, ↓reduceIte, named, bind, Except.bind]
      · simp only [failure?, capacity, ↓reduceIte, failing]
  · refine .inr ⟨.foreignSubset, ?_, ?_⟩
    · simp only [ofTable, capacity, ↓reduceIte]
      rfl
    · simp only [failure?, capacity, ↓reduceIte]

namespace Complete

theorem eligible_named (complete : Complete namer map)
    (eligible : namer.set.isEligible ty = true) :
    ∃ entry, namer.plain ty = .ok entry ∧ map.table.get? ty = some entry := by
  have inside := ExchangeSet.inside_of_eligible eligible
  obtain ⟨entry, named, present⟩ := complete.named (.ofPair ty.pair) (ExchangeSet.mem_types.mpr ⟨rfl, eligible⟩)
  have known : namer.system.catalog.contains ty = true :=
    Catalog.contains_iff.mpr (Nat.lt_of_lt_of_eq inside complete.capacity)
  obtain ⟨shape, found⟩ := Catalog.shape_of_contains known
  have same : (TypeId.ofPair ty.pair).pair = ty.pair := rfl
  exact ⟨entry, (plain_of_pair found same).symm.trans named, (NameTable.get?_of_pair same).symm.trans present⟩

theorem isEligible_eq (complete : Complete namer map) (ty : TypeId) : map.isEligible ty = namer.set.isEligible ty := by
  simp only [isEligible, system, set, complete.same]
  cases eligible : namer.set.isEligible ty with
  | false => rw [Bool.and_false]
  | true =>
    rw [Bool.and_true]
    exact Catalog.contains_iff.mpr (Nat.lt_of_lt_of_eq (ExchangeSet.inside_of_eligible eligible) complete.capacity)

theorem entry_named (complete : Complete namer map) (eligible : map.isEligible ty = true) :
    ∃ entry, map.entry ty = .ok entry ∧ namer.plain ty = .ok entry := by
  obtain ⟨entry, named, present⟩ := complete.eligible_named ((complete.isEligible_eq ty).symm.trans eligible)
  refine ⟨entry, ?_, named⟩
  simp only [NameMap.entry, require, eligible, ↓reduceIte, present]

theorem entry_plain (complete : Complete namer map)
    (eligible : namer.set.isEligible ty = true) : map.entry ty = namer.plain ty := by
  obtain ⟨entry, found, named⟩ := complete.entry_named ((complete.isEligible_eq ty).trans eligible)
  rw [found, named]

theorem entry_eq (one : Complete namer first) (two : Complete namer second) (ty : TypeId) :
    first.entry ty = second.entry ty := by
  cases eligible : namer.set.isEligible ty with
  | true => rw [one.entry_plain eligible, two.entry_plain eligible]
  | false =>
    simp only [NameMap.entry, require, one.isEligible_eq, two.isEligible_eq, eligible, outside, system, one.same, two.same,
      Bool.false_eq_true, ↓reduceIte]

theorem index_eq (one : Complete namer first) (two : Complete namer second) (ty : TypeId) :
    first.index ty = second.index ty := by
  simp only [index, require, isEligible, outside, system, set, one.same, two.same, one.positions, two.positions]

theorem entries_eq (one : Complete namer first) (two : Complete namer second) : first.entries = second.entries := by
  simp only [entries, set, one.same, two.same]
  apply List.filterMap_congr
  intro ty member
  obtain ⟨entry, named, present⟩ := one.named ty member
  obtain ⟨other, again, kept⟩ := two.named ty member
  rw [named] at again
  cases again
  rw [present, kept]

end Complete

inductive Chain (system : System) (naming : Naming) (config : Config) : NameMap → Prop where
  | build {set : ExchangeSet} {map : NameMap} (built : NameMap.build system naming config set = .ok map) :
      Chain system naming config map
  | subset {map later : NameMap} {set : ExchangeSet} (earlier : Chain system naming config map)
      (built : map.withSubset set = .ok later) : Chain system naming config later

variable {system : System} {naming : Naming} {config : Config}

theorem ofTable_complete (memo : namer.Memo table) (made : ofTable namer table = .ok map) :
    Complete namer map := by
  rcases ofTable_agrees memo with ⟨other, again, -, complete⟩ | ⟨error, failed, -⟩
  · rw [made] at again
    cases again
    exact complete
  · rw [made] at failed
    cases failed

theorem Chain.complete (chain : Chain system naming config map) :
    ∃ set, Complete ⟨system, naming, config, set⟩ map := by
  induction chain with
  | @build set map built => exact ⟨set, ofTable_complete (Memo.empty ⟨system, naming, config, set⟩) built⟩
  | @subset map later set earlier built ih =>
    obtain ⟨old, complete⟩ := ih
    have memo := complete.memo.reusable set
    rw [withSubset, complete.same] at built
    exact ⟨set, ofTable_complete memo built⟩

/-- Both fail with one error, or both hold the same names, which are those of the rules of the kinds. As many levels as
there are types are enough for them, and more change nothing. -/
def Alike (system : System) (naming : Naming) (config : Config) (set : ExchangeSet) :
    Except Error NameMap → Except Error NameMap → Prop
  | .ok first, .ok second =>
    (∀ ty, first.entry ty = second.entry ty) ∧ (∀ ty, first.index ty = second.index ty) ∧
      first.entries = second.entries ∧ first.support = second.support ∧
      ∀ ty, set.isEligible ty = true → ∃ entry, first.entry ty = .ok entry ∧
        ∀ depth, system.size < depth → naming.ruledWithin system config set depth ty = some entry
  | .error first, .error second => first = second
  | _, _ => False

theorem Complete.ruled (complete : Complete namer map) (eligible : namer.set.isEligible ty = true) :
    ∃ entry, map.entry ty = .ok entry ∧ ∀ depth, namer.system.size < depth →
      namer.naming.ruledWithin namer.system namer.config namer.set depth ty = some entry := by
  obtain ⟨entry, found, named⟩ := complete.entry_named ((complete.isEligible_eq ty).trans eligible)
  refine ⟨entry, found, ?_⟩
  intro depth enough
  rw [ruledWithin_eq, plainWithin_eq_plain enough, named]
  rfl

/-- However a map has been reached, a further subset is named as it would be from nothing, and by the rules of the kinds. -/
theorem withSubset_eq_build (chain : Chain system naming config map) (set : ExchangeSet) :
    Alike system naming config set (map.withSubset set) (build system naming config set) := by
  obtain ⟨old, complete⟩ := chain.complete
  let namer : Namer := ⟨system, naming, config, set⟩
  have reused : map.withSubset set = ofTable namer map.table.reusable := by rw [withSubset, complete.same]
  have fresh : build system naming config set = ofTable namer (.empty system.size) := rfl
  have memo : namer.Memo map.table.reusable := complete.memo.reusable set
  rcases ofTable_agrees memo with ⟨one, made, none, oneComplete⟩ | ⟨error, failed, failing⟩
  · rcases ofTable_agrees (Memo.empty namer) with ⟨two, again, -, twoComplete⟩ | ⟨other, failed, failing⟩
    · rw [reused, made, fresh, again]
      exact ⟨oneComplete.entry_eq twoComplete, oneComplete.index_eq twoComplete, oneComplete.entries_eq twoComplete,
        oneComplete.support.trans twoComplete.support.symm, fun ty eligible => oneComplete.ruled eligible⟩
    · rw [none] at failing
      cases failing
  · rcases ofTable_agrees (Memo.empty namer) with ⟨two, again, none, -⟩ | ⟨other, failed', failing'⟩
    · rw [none] at failing
      cases failing
    · rw [reused, failed, fresh, failed']
      rw [failing] at failing'
      exact Option.some.inj failing'

/-- The union of the gallery loses one of its members, and its name no longer lists it. -/
theorem withSubset_eq_build_gallery : ∃ system diagnostics map later, Builder.gallery.lock = some (system, diagnostics) ∧
    build system .standard {} (.full system {}) = .ok map ∧
    map.withSubset ((ExchangeSet.full system {}).mark BasicType.sbyte.id) = .ok later ∧
    map.name (.ofPair 21) = .ok "A(Figure)|sbyte" ∧
    ∃ fresh entry, build system .standard {} ((ExchangeSet.full system {}).mark BasicType.sbyte.id) = .ok fresh ∧
      later.entry (.ofPair 21) = .ok entry ∧ fresh.entry (.ofPair 21) = .ok entry ∧ entry.name = "A(Figure)" ∧
      ∀ depth, system.size < depth → Naming.standard.ruledWithin system {}
        ((ExchangeSet.full system {}).mark BasicType.sbyte.id) depth (.ofPair 21) = some entry := by
  have named : Builder.gallery.lock.any (fun locked =>
      (build locked.1 .standard {} (.full locked.1 {})).toOption.any fun map =>
      (map.withSubset ((ExchangeSet.full locked.1 {}).mark BasicType.sbyte.id)).toOption.any fun later =>
      (map.name (.ofPair 21)).toOption.any fun name =>
      (later.entry (.ofPair 21)).toOption.any fun entry => decide (name = "A(Figure)|sbyte" ∧ entry.name = "A(Figure)" ∧
        ((ExchangeSet.full locked.1 {}).mark BasicType.sbyte.id).isEligible (.ofPair 21) = true)) = true := by decide +kernel
  obtain ⟨⟨system, diagnostics⟩, locked, named⟩ := (Option.any_eq_true ..).mp named
  obtain ⟨map, first, named⟩ := any_toOption_iff.mp named
  obtain ⟨later, second, named⟩ := any_toOption_iff.mp named
  obtain ⟨name, listing, named⟩ := any_toOption_iff.mp named
  obtain ⟨entry, found, named⟩ := any_toOption_iff.mp named
  obtain ⟨rfl, short, eligible⟩ := of_decide_eq_true named
  have alike := withSubset_eq_build (.build first) ((ExchangeSet.full system {}).mark BasicType.sbyte.id)
  cases third : build system .standard {} ((ExchangeSet.full system {}).mark BasicType.sbyte.id) with
  | error error =>
    rw [second, third] at alike
    exact alike.elim
  | ok fresh =>
    rw [second, third] at alike
    obtain ⟨same, -, -, -, ruled⟩ := alike
    obtain ⟨again, found', steady⟩ := ruled (.ofPair 21) eligible
    rw [found] at found'
    cases found'
    exact ⟨system, diagnostics, map, later, locked, first, second, listing, fresh, entry, third, found,
      (same (.ofPair 21)).symm.trans found, short, steady⟩

end NameMap
end Interchange
