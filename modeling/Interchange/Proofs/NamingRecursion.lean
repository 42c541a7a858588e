import Interchange.Naming.Table
import Interchange.Proofs.CatalogSoundness
import Mathlib.Data.Finset.Card
import Mathlib.Order.Monotone.Basic

/-! The rules of naming without a table. A table of names found earlier changes how
often the rules are asked, but neither the names nor the errors that come out. There are only so many
pairs, so a recursion that has not ended after as many levels never will. -/

namespace Interchange

theorem bind_eq_ok_iff {ε α β : Type} {action : Except ε α} {next : α → Except ε β} {value : β} :
    (action >>= next) = .ok value ↔ ∃ result, action = .ok result ∧ next result = .ok value := by
  cases action <;> simp [bind, Except.bind]

theorem map_eq_error {ε α β : Type} {action : Except ε α} {change : α → β} {error : ε}
    (failed : action.map change = .error error) : action = .error error := by
  cases action <;> simp_all [Except.map]

theorem any_toOption_iff {ε α : Type} {action : Except ε α} {holds : α → Bool} :
    action.toOption.any holds = true ↔ ∃ value, action = .ok value ∧ holds value = true := by
  cases action <;> simp [Except.toOption]

namespace Namer

variable {namer : Namer} {ty other : TypeId} {shape : Shape} {table : NameTable} {entry : NameEntry} {names : List NamedPart}
  {dependent : Bool} {parts : List (TypeId × Option String)} {first second : TypeId → Except Error NameEntry} {depth further : Nat}

def plainParts (plain : TypeId → Except Error NameEntry) :
    List (TypeId × Option String) → Except Error (List NamedPart × Bool)
  | [] => .ok ([], false)
  | (ty, label) :: rest => do
    let entry ← plain ty
    let (parts, dependent) ← plainParts plain rest
    return (⟨ty, entry.nameOf ty, label⟩ :: parts, entry.subsetDependent || dependent)

def plainWithin (namer : Namer) : Nat → TypeId → Except Error NameEntry
  | 0, _ => .error endless
  | depth + 1, ty =>
    match namer.system.shape? ty with
    | none => .error (.notInSubset ty.tag)
    | some shape => do
      let (parts, dependent) ← plainParts (namer.plainWithin depth) (namer.parts shape)
      namer.makeEntry ty.nonNull shape parts dependent

def plain (namer : Namer) (ty : TypeId) : Except Error NameEntry :=
  namer.plainWithin (namer.system.size + 1) ty

theorem plainParts_cons {label : Option String} : plainParts first ((ty, label) :: parts) = .ok (names, dependent) ↔
    ∃ entry, first ty = .ok entry ∧ ∃ others more, plainParts first parts = .ok (others, more) ∧
      ⟨ty, entry.nameOf ty, label⟩ :: others = names ∧ (entry.subsetDependent || more) = dependent := by
  simp only [plainParts, bind_eq_ok_iff, Prod.exists, pure, Except.pure, Except.ok.injEq, Prod.mk.injEq]

theorem plainWithin_succ : namer.plainWithin (depth + 1) ty = .ok entry ↔
    ∃ shape, namer.system.shape? ty = some shape ∧ ∃ names dependent,
      plainParts (namer.plainWithin depth) (namer.parts shape) = .ok (names, dependent) ∧
      namer.makeEntry ty.nonNull shape names dependent = .ok entry := by
  simp only [plainWithin]
  cases namer.system.shape? ty with
  | none => simp
  | some shape => simp only [bind_eq_ok_iff, Prod.exists, Option.some.injEq, exists_eq_left']

/-- Where the first rules come to an end, the second do as well and alike. -/
theorem plainParts_ended (each : ∀ part ∈ parts, first part.1 ≠ .error endless → second part.1 = first part.1)
    (ended : plainParts first parts ≠ .error endless) : plainParts second parts = plainParts first parts := by
  induction parts with
  | nil => rfl
  | cons part rest ih =>
    have own : first part.1 ≠ .error endless := by
      intro failed
      exact ended (by simp only [plainParts, failed, bind, Except.bind])
    simp only [plainParts, each part List.mem_cons_self own]
    cases outcome : first part.1 with
    | error error => rfl
    | ok entry =>
      have others : plainParts first rest ≠ .error endless := by
        intro failed
        exact ended (by simp only [plainParts, outcome, failed, bind, Except.bind])
      rw [ih (fun part member => each part (List.mem_cons_of_mem _ member)) others]

theorem plainWithin_ended (ended : namer.plainWithin depth ty ≠ .error endless) (deeper : depth ≤ further) :
    namer.plainWithin further ty = namer.plainWithin depth ty := by
  induction depth generalizing further ty with
  | zero => exact absurd rfl ended
  | succ depth ih =>
    obtain ⟨further, rfl⟩ : ∃ below, further = below + 1 := ⟨further - 1, by omega⟩
    simp only [plainWithin] at ended ⊢
    cases found : namer.system.shape? ty with
    | none => rfl
    | some shape =>
      simp only [found] at ended ⊢
      have inner : plainParts (namer.plainWithin depth) (namer.parts shape) ≠ .error endless := by
        intro failed
        exact ended (by simp only [failed, bind, Except.bind])
      rw [plainParts_ended (fun part _ own => ih own (by omega)) inner]

theorem plainWithin_of_pair (found : namer.system.shape? ty = some shape) (same : other.pair = ty.pair) :
    namer.plainWithin depth other = namer.plainWithin depth ty := by
  cases depth with
  | zero => rfl
  | succ depth =>
    have present : namer.system.shape? other = some shape := (Catalog.shape?_of_pair same).trans found
    have bare : other.nonNull = ty.nonNull := TypeId.ext_iff_pair.mpr ⟨same, rfl⟩
    simp only [plainWithin, found, present, bare]

section Stabilization

/-- One level more makes no recursion end that has not ended yet. -/
def Settled (namer : Namer) (depth : Nat) : Prop :=
  ∀ ty, namer.plainWithin (depth + 1) ty ≠ .error endless → namer.plainWithin depth ty = namer.plainWithin (depth + 1) ty

theorem Settled.succ (settled : namer.Settled depth) : namer.Settled (depth + 1) := by
  intro ty ended
  rw [plainWithin] at ended ⊢
  rw [plainWithin]
  cases found : namer.system.shape? ty with
  | none => rfl
  | some shape =>
    simp only [found] at ended ⊢
    have inner : plainParts (namer.plainWithin (depth + 1)) (namer.parts shape) ≠ .error endless := by
      intro failed
      exact ended (by simp only [failed, bind, Except.bind])
    rw [plainParts_ended (fun part _ own => settled part.1 own) inner]

open Classical in
/-- The pairs whose recursion ends at most the given number of levels below the first. -/
noncomputable def ended (namer : Namer) (depth : Nat) : Finset Nat :=
  {pair ∈ Finset.range namer.system.size | namer.plainWithin (depth + 1) (.ofPair pair) ≠ .error endless}

theorem mem_ended {pair : Nat} : pair ∈ namer.ended depth ↔
    pair < namer.system.size ∧ namer.plainWithin (depth + 1) (.ofPair pair) ≠ .error endless := by
  simp [ended]

theorem ended_mono (namer : Namer) : Monotone namer.ended := by
  intro depth further deeper pair member
  obtain ⟨inside, own⟩ := mem_ended.mp member
  exact mem_ended.mpr ⟨inside, by rwa [plainWithin_ended own (Nat.succ_le_succ deeper)]⟩

theorem settled_iff_ended : namer.Settled (depth + 1) ↔ namer.ended depth = namer.ended (depth + 1) := by
  constructor
  · intro settled
    apply (namer.ended_mono (Nat.le_succ depth)).antisymm
    intro pair member
    obtain ⟨inside, own⟩ := mem_ended.mp member
    exact mem_ended.mpr ⟨inside, by rwa [settled _ own]⟩
  · intro same ty own
    cases found : namer.system.shape? ty with
    | none => simp only [plainWithin, found]
    | some shape =>
      have paired : (TypeId.ofPair ty.pair).pair = ty.pair := rfl
      have inside : ty.pair < namer.system.size := Catalog.contains_iff.mp (Catalog.contains_of_shape found)
      have member : ty.pair ∈ namer.ended (depth + 1) := mem_ended.mpr ⟨inside, by rwa [plainWithin_of_pair found paired]⟩
      rw [← same, mem_ended, plainWithin_of_pair found paired] at member
      exact (plainWithin_ended member.2 (Nat.le_succ _)).symm

/-- More pairs come to an end with every level, or no more ever do; and there are no more pairs than the table has. -/
theorem settled_of_size (deep : namer.system.size < depth) : namer.Settled depth := by
  have bounded (depth : Nat) : (namer.ended depth).card ≤ namer.system.size := by
    calc (namer.ended depth).card ≤ (Finset.range namer.system.size).card := Finset.card_filter_le _ _
      _ = namer.system.size := Finset.card_range _
  have same_of_card {depth : Nat} (same : (namer.ended depth).card = (namer.ended (depth + 1)).card) :
      namer.ended depth = namer.ended (depth + 1) :=
    Finset.eq_of_subset_of_card_le (namer.ended_mono (Nat.le_succ depth)) same.ge
  have stable (depth : Nat) (same : (namer.ended depth).card = (namer.ended (depth + 1)).card) :
      (namer.ended (depth + 1)).card = (namer.ended (depth + 2)).card := by
    rw [settled_iff_ended.mp (settled_iff_ended.mpr (same_of_card same)).succ]
  have rising : Monotone fun depth => (namer.ended depth).card :=
    fun _ _ deeper => Finset.card_le_card (namer.ended_mono deeper)
  have last := Nat.stabilises_of_monotone rising bounded stable (Nat.le_succ namer.system.size)
  obtain ⟨more, rfl⟩ : ∃ more, depth = namer.system.size + 1 + more := ⟨depth - (namer.system.size + 1), by omega⟩
  induction more with
  | zero => exact settled_iff_ended.mpr (same_of_card last.symm)
  | succ more ih => exact (ih (by omega)).succ

/-- Any number of levels beyond that of the pairs comes to the same. -/
theorem plainWithin_eq_plain (deep : namer.system.size < depth) : namer.plainWithin depth ty = namer.plain ty := by
  obtain ⟨more, rfl⟩ : ∃ more, depth = namer.system.size + 1 + more := ⟨depth - (namer.system.size + 1), by omega⟩
  induction more with
  | zero => rfl
  | succ more ih =>
    rw [← ih (by omega)]
    by_cases own : namer.plainWithin (namer.system.size + 1 + more) ty = .error endless
    · have settled : namer.Settled (namer.system.size + 1 + more) := settled_of_size (by omega)
      by_contra different
      rw [own] at different
      exact different ((settled ty different).symm.trans own)
    · exact plainWithin_ended own (Nat.le_succ _)

end Stabilization

theorem plain_of_ended (ended : namer.plainWithin depth ty ≠ .error endless) : namer.plain ty = namer.plainWithin depth ty := by
  have deep : namer.system.size < max depth (namer.system.size + 1) := by omega
  rw [← plainWithin_eq_plain deep, plainWithin_ended ended (Nat.le_max_left _ _)]

/-- The rules are applied to the names of the parts. -/
theorem plain_eq (found : namer.system.shape? ty = some shape) :
    namer.plain ty = (do
      let (parts, dependent) ← plainParts namer.plain (namer.parts shape)
      namer.makeEntry ty.nonNull shape parts dependent) := by
  have level : namer.plain ty = namer.plainWithin (namer.system.size + 1 + 1) ty :=
    (plainWithin_eq_plain (by omega)).symm
  rw [level, plainWithin, found]
  rfl

theorem plain_unregistered (missing : namer.system.shape? ty = none) : namer.plain ty = .error (.notInSubset ty.tag) := by
  simp only [plain, plainWithin, missing]

theorem plain_of_pair (found : namer.system.shape? ty = some shape) (same : other.pair = ty.pair) :
    namer.plain other = namer.plain ty :=
  plainWithin_of_pair found same

theorem parts_foundation {part : TypeId × Option String} (member : part ∈ namer.parts shape) :
    part.1 ∈ shape.foundation := by
  cases shape with
  | secondary name head =>
    cases List.mem_singleton.mp member
    simp [Shape.foundation]
  | tuple elements =>
    obtain ⟨element, present, rfl⟩ := List.mem_map.mp member
    exact List.mem_map_of_mem present
  | union members =>
    obtain ⟨other, present, rfl⟩ := List.mem_map.mp member
    exact (List.mem_filter.mp present).1
  | any | basic | enumeration | record | primary | abstraction => cases member
  | array | list | set | dictionary =>
    obtain ⟨other, present, rfl⟩ := List.mem_map.mp member
    exact present

theorem part_before (sound : namer.system.catalog.Sound) (found : namer.system.shape? ty = some shape)
    {part : TypeId × Option String} (member : part ∈ namer.parts shape) : part.1.pair < ty.pair :=
  sound.ordered ty shape found part.1 (parts_foundation member)

/-- Parts whose names do not depend on the subset have the same names under every rule that agrees on such names. -/
theorem plainParts_independent
    (each : ∀ part ∈ parts, ∀ entry, first part.1 = .ok entry → entry.subsetDependent = false → second part.1 = .ok entry)
    (named : plainParts first parts = .ok (names, false)) : plainParts second parts = .ok (names, false) := by
  induction parts generalizing names with
  | nil => exact named
  | cons part rest ih =>
    obtain ⟨entry, own, others, more, later, rfl, none⟩ := plainParts_cons.mp named
    obtain ⟨unmarked, unmarkedRest⟩ := Bool.or_eq_false_iff.mp none
    subst unmarkedRest
    have remaining := ih (fun part member => each part (List.mem_cons_of_mem _ member)) later
    exact plainParts_cons.mpr ⟨entry, each _ List.mem_cons_self entry own unmarked, others, false, remaining, rfl, none⟩

theorem makeEntry_dependent (made : namer.makeEntry ty shape names dependent = .ok entry) :
    entry.subsetDependent = (dependent || shape.kind == .union) := by
  simp only [makeEntry, bind, Except.bind, pure, Except.pure] at made
  split at made
  · cases made
  · split at made
    · cases made
    · cases made
      rfl

theorem plainWithin_independent (named : namer.plainWithin depth ty = .ok entry) (unmarked : entry.subsetDependent = false)
    (set : ExchangeSet) : plainWithin { namer with set } depth ty = .ok entry := by
  induction depth generalizing ty entry with
  | zero => cases named
  | succ depth ih =>
    obtain ⟨shape, found, names, dependent, listed, made⟩ := plainWithin_succ.mp named
    rw [makeEntry_dependent made, Bool.or_eq_false_iff] at unmarked
    obtain ⟨rfl, single⟩ := unmarked
    have same : namer.parts shape = Namer.parts { namer with set } shape := by
      cases shape with
      | union => cases single
      | _ => rfl
    refine plainWithin_succ.mpr ⟨shape, found, names, false, ?_, made⟩
    rw [← same]
    exact plainParts_independent (fun part member entry named unmarked => ih named unmarked) listed

/-- A name that does not depend on the subset is the same for every subset. -/
theorem plain_independent (named : namer.plain ty = .ok entry) (unmarked : entry.subsetDependent = false) (set : ExchangeSet) :
    plain { namer with set } ty = .ok entry :=
  plainWithin_independent named unmarked set

end Namer
end Interchange
