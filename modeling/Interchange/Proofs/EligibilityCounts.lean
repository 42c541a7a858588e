import Interchange.Proofs.Propagation

/-! Eligible pairs and their number. Every call takes pairs out one by one, each of them once, and the counter goes down
with them. This is so on any system, also on one that the set was not made for. -/

namespace Interchange

namespace ExchangeSet

variable {set middle final : ExchangeSet} {system : System} {ty : TypeId} {types rest : List TypeId} {first second : Nat}

/-- Pairs are taken out one after the other. When its turn comes, each is eligible and not the universal type, and the
counter is above zero. -/
inductive Marks : ExchangeSet → List TypeId → ExchangeSet → Prop where
  | nil (set : ExchangeSet) : Marks set [] set
  | cons {set final : ExchangeSet} {ty : TypeId} {rest : List TypeId} (eligible : set.isEligible ty = true)
      (proper : ty.isAny = false) (positive : 0 < set.count) (later : Marks (set.mark ty) rest final) :
      Marks set (ty :: rest) final

namespace Marks

theorem append (earlier : Marks set types middle) (later : Marks middle rest final) : Marks set (types ++ rest) final := by
  induction earlier with
  | nil => exact later
  | cons eligible proper positive _ ih => exact .cons eligible proper positive (ih later)

theorem capacity (marks : Marks set types final) : final.capacity = set.capacity := by
  induction marks with
  | nil => rfl
  | cons _ _ _ _ ih => rw [ih, mark_capacity]

theorem within (marks : Marks set types final) : final.Within set := by
  induction marks with
  | nil => exact fun _ eligible => eligible
  | cons _ _ _ _ ih => exact fun ty eligible => (eligible_of_mark (ih ty eligible)).1

theorem balance (marks : Marks set types final) : final.remaining + types.length = set.remaining := by
  induction marks with
  | nil => rfl
  | cons eligible _ _ _ ih =>
    have marked := remaining_mark eligible
    rw [List.length_cons]
    omega

theorem counts (marks : Marks set types final) : final.count + types.length = set.count := by
  induction marks with
  | nil => rfl
  | @cons set final ty rest _ _ positive _ ih =>
    have marked : (set.mark ty).count = set.count - 1 := rfl
    rw [List.length_cons]
    omega

theorem keeps_any (marks : Marks set types final) (present : set.isEligible .any = true) : final.isEligible .any = true := by
  induction marks with
  | nil => exact present
  | cons _ proper _ _ ih => exact ih (eligible_mark present (TypeId.isAny_eq_false_iff.mp proper))

end Marks

def Takes (set : ExchangeSet) (result : ExchangeSet × Nat) : Prop :=
  ∃ types, Marks set types result.1 ∧ types.length = result.2

namespace Takes

theorem none (set : ExchangeSet) : set.Takes (set, 0) :=
  ⟨[], .nil set, rfl⟩

theorem trans (earlier : set.Takes (middle, first)) (later : middle.Takes (final, second)) :
    set.Takes (final, first + second) := by
  obtain ⟨types, marks, rfl⟩ := earlier
  obtain ⟨rest, further, rfl⟩ := later
  exact ⟨types ++ rest, marks.append further, List.length_append⟩

theorem one (counted : set.count = set.remaining) (eligible : set.isEligible ty = true) (proper : ty.isAny = false) :
    set.Takes (set.mark ty, 1) := by
  have balance := remaining_mark eligible
  exact ⟨[ty], .cons eligible proper (by omega) (.nil _), rfl⟩

theorem counted {result : ExchangeSet × Nat} (takes : set.Takes result) (counted : set.count = set.remaining) :
    result.1.count = result.1.remaining := by
  obtain ⟨types, marks, -⟩ := takes
  have counts := marks.counts
  have balance := marks.balance
  omega

end Takes

section Universal

variable (universal : system.shape? .any = some .any)

include universal

theorem sweep_takes (counted : set.count = set.remaining) (edges : List Edge) :
    set.Takes ((set.sweep system edges).1, (set.sweep system edges).2.length) := by
  induction edges generalizing set with
  | nil => exact .none set
  | cons edge rest ih =>
    simp only [sweep]
    split
    next follows =>
      obtain ⟨eligible, leaving⟩ := Bool.and_eq_true_iff.mp follows
      have marked := Takes.one counted eligible (proper_of_leaves universal leaving)
      rw [List.length_cons, Nat.add_comm]
      exact marked.trans (ih (marked.counted counted))
    next => exact ih counted

theorem cascade_takes (counted : set.count = set.remaining) (work : List TypeId) : set.Takes (set.cascade system work) := by
  fun_induction cascade set system work with
  | case1 set => exact .none set
  | case2 set target work swept final excluded result ih =>
    have swept' := sweep_takes universal counted (system.backReferences target)
    rw [result] at ih
    exact swept'.trans (ih (swept'.counted counted))

theorem exclude_takes (counted : set.count = set.remaining) (ty : TypeId) : set.Takes (set.exclude system ty) := by
  simp only [exclude]
  split
  next allowed =>
    obtain ⟨proper, eligible⟩ := Bool.and_eq_true_iff.mp allowed
    have marked := Takes.one counted eligible (by simpa using proper)
    rw [Nat.add_comm]
    exact marked.trans (cascade_takes universal (marked.counted counted) [ty.nonNull])
  next => exact .none set

theorem excludeAll_takes (counted : set.count = set.remaining) (types : List TypeId) :
    set.Takes (set.excludeAll system types) := by
  induction types generalizing set with
  | nil => exact .none set
  | cons ty rest ih =>
    have excluded := exclude_takes universal counted ty
    exact excluded.trans (ih (excluded.counted counted))

theorem Rounds.takes {rounds excluded : Nat} (run : Rounds system set rounds final excluded)
    (counted : set.count = set.remaining) : set.Takes (final, excluded) := by
  induction run with
  | done => exact .none _
  | @round set _ _ _ _ _ ih =>
    have round := excludeAll_takes universal counted (set.pending system)
    exact round.trans (ih (round.counted counted))

end Universal

/-- The number kept beside the pairs is that of the eligible ones, the universal type is one of them, the pairs are those
of a universe of the given size, and no pair is eligible by halves. -/
structure Balanced (set : ExchangeSet) (size : Nat) : Prop where
  counted : set.count = set.types.length
  universal : set.isEligible .any = true
  capacity : set.capacity = size
  duals : ∀ ty, set.isEligible ty.dual = set.isEligible ty

theorem full_balanced {config : Config} (universal : system.shape? .any = some .any) :
    (full system config).Balanced system.size := by
  refine ⟨?_, ?_, by simp [full, ExchangeSet.capacity], fun _ => isEligible_of_pair rfl⟩
  · rw [length_types]
    simp [full, remaining]
  · rw [full_isEligible, decide_eq_true_eq]
    exact Catalog.contains_iff.mp (Catalog.contains_of_shape universal)

theorem Balanced.marks {size : Nat} (balanced : set.Balanced size) (marks : Marks set types final) : final.Balanced size := by
  refine ⟨?_, marks.keeps_any balanced.universal, marks.capacity.trans balanced.capacity, fun _ => isEligible_of_pair rfl⟩
  have counts := marks.counts
  have balance := marks.balance
  have counted := balanced.counted
  rw [length_types] at counted ⊢
  omega

end ExchangeSet

namespace SetCall

open ExchangeSet

variable {set next final : ExchangeSet} {system : System}

def answer? (system : System) (set : ExchangeSet) : SetCall → Option Nat
  | exclude ty => some (set.exclude system ty).2
  | subset _ => none
  | propagate => (set.propagate? system).map Prod.snd

def runSteps (set : ExchangeSet) (steps : List (System × SetCall)) : Option ExchangeSet :=
  steps.foldlM (fun set step => step.2.run step.1 set) set

theorem run_takes (locked : system.Locked) (counted : set.count = set.remaining) (call : SetCall)
    (ran : call.run system set = some next) :
    ∃ number, set.Takes (next, number) ∧ ∀ answer, call.answer? system set = some answer → answer = number := by
  have universal := locked.universal
  cases call with
  | exclude ty =>
    cases ran
    exact ⟨_, exclude_takes universal counted ty, fun _ answered => (Option.some.inj answered).symm⟩
  | subset keep =>
    cases ran
    exact ⟨_, excludeAll_takes universal counted _, nofun⟩
  | propagate =>
    obtain ⟨result, propagated, rfl⟩ := Option.map_eq_some_iff.mp ran
    have settled : set.settle system = result := by
      simp only [propagate?] at propagated
      split at propagated
      · exact Option.some.inj propagated
      · cases propagated
    obtain ⟨rounds, -, run⟩ := @settle_rounds system universal set
    rw [settled] at run
    refine ⟨_, run.takes universal counted, ?_⟩
    intro answer answered
    rw [answer?, propagated] at answered
    exact (Option.some.inj answered).symm

theorem runSteps_marks {steps : List (System × SetCall)} (locked : ∀ step ∈ steps, step.1.Locked)
    (counted : set.count = set.remaining) (ran : runSteps set steps = some final) : ∃ types, Marks set types final := by
  induction steps generalizing set with
  | nil =>
    cases ran
    exact ⟨[], .nil _⟩
  | cons step rest ih =>
    obtain ⟨next, stepped, ran⟩ := Option.bind_eq_some_iff.mp ran
    obtain ⟨number, takes, -⟩ := run_takes (locked step (by simp)) counted step.2 stepped
    obtain ⟨further, later⟩ := ih (fun other member => locked other (by simp [member])) (takes.counted counted) ran
    obtain ⟨types, marks, -⟩ := takes
    exact ⟨types ++ further, marks.append later⟩

end SetCall

namespace ExchangeSet

open SetCall

/-- The set comes of the operations on sets: it was made for some system, and any calls followed, on any systems. -/
def Obtained (set : ExchangeSet) : Prop :=
  ∃ (home : System) (config : Config) (reject : TypeId → Bool) (steps : List (System × SetCall)),
    home.Locked ∧ (∀ step ∈ steps, step.1.Locked) ∧ runSteps (withFilter home config reject) steps = some set

theorem Obtained.counted {set : ExchangeSet} (obtained : set.Obtained) : set.count = set.types.length := by
  obtain ⟨home, config, reject, steps, locked, systems, ran⟩ := obtained
  have start : (full home config).count = (full home config).remaining := by
    rw [(full_balanced locked.universal).counted, length_types]
  have filtered : (full home config).Takes (withFilter home config reject, _) := excludeAll_takes locked.universal start _
  obtain ⟨types, marks⟩ := runSteps_marks systems (filtered.counted start) ran
  have takes : (withFilter home config reject).Takes (set, types.length) := ⟨types, marks, rfl⟩
  rw [length_types]
  exact takes.counted (filtered.counted start)

/-- Whatever is called on a set, on whatever systems, its books are right: from the full set on, pairs leave one by one,
each while it is eligible and the counter above zero, and each call returns by how much the number went down. -/
theorem eligibility_stays_balanced {home : System} {earlier later : List (System × SetCall)} {set final : ExchangeSet}
    (locked : home.Locked) (systems : ∀ step ∈ earlier ++ later, step.1.Locked) (config : Config) (reject : TypeId → Bool)
    (before : runSteps (withFilter home config reject) earlier = some set) (after : runSteps set later = some final) :
    set.Balanced home.size ∧ final.Balanced home.size ∧ final.Within set ∧
      (∃ types, Marks (full home config) types set) ∧ (∃ types, Marks set types final) ∧
      ∀ system call, later = [(system, call)] → ∀ number, call.answer? system set = some number →
        final.count + number = set.count := by
  have universal := locked.universal
  have start := @full_balanced home config universal
  have counted : (full home config).count = (full home config).remaining := by rw [start.counted, length_types]
  have filtered : (full home config).Takes (withFilter home config reject, _) := excludeAll_takes universal counted _
  obtain ⟨first, early⟩ := runSteps_marks (fun step member => systems step (by simp [member])) (filtered.counted counted) before
  obtain ⟨types, made, -⟩ := filtered
  have all := made.append early
  have balanced := start.marks all
  have recounted : set.count = set.remaining := by rw [balanced.counted, length_types]
  obtain ⟨second, late⟩ := runSteps_marks (fun step member => systems step (by simp [member])) recounted after
  refine ⟨balanced, balanced.marks late, late.within, ⟨_, all⟩, ⟨_, late⟩, ?_⟩
  rintro system call rfl number answered
  obtain ⟨next, ran, same⟩ := Option.bind_eq_some_iff.mp after
  cases same
  obtain ⟨taken, ⟨gone, marks, rfl⟩, agrees⟩ := run_takes (systems (system, call) (by simp)) recounted call ran
  rw [agrees number answered]
  exact marks.counts

/-- An array, a list of such arrays and a tuple, in the places where the gallery has other types. -/
def tally : Builder :=
  Builder.new.replay [.array BasicType.int.id, .list (.ofPair 19) .concrete, .tuple [.ofPair 20, BasicType.int.id]]

theorem tally_reached : tally.Reached :=
  Builder.ReachedBy.new.replay (by decide +kernel)

/-- A set of the gallery loses the integers, and what follows them elsewhere; then its own system is asked again. -/
theorem eligibility_stays_balanced_gallery : ∃ home foreign diagnostics diagnostics',
    Builder.gallery.lock = some (home, diagnostics) ∧ tally.lock = some (foreign, diagnostics') ∧
    home.Locked ∧ foreign.Locked ∧ ∃ set final number,
      runSteps (withFilter home {} fun _ => false) [(foreign, .exclude BasicType.int.id)] = some set ∧
      runSteps set [(home, .propagate)] = some final ∧ set.Balanced home.size ∧ final.Balanced home.size ∧
      SetCall.propagate.answer? home set = some number ∧ final.count + number = set.count := by
  obtain ⟨⟨home, diagnostics⟩, lock⟩ := Option.isSome_iff_exists.mp (by decide +kernel : Builder.gallery.lock.isSome = true)
  obtain ⟨⟨foreign, diagnostics'⟩, lock'⟩ := Option.isSome_iff_exists.mp (by decide +kernel : tally.lock.isSome = true)
  have locked := System.Locked.of_reached Builder.gallery_reached lock
  have locked' := System.Locked.of_reached tally_reached lock'
  let set := ((withFilter home {} fun _ => false).exclude foreign BasicType.int.id).1
  have before : runSteps (withFilter home {} fun _ => false) [(foreign, .exclude BasicType.int.id)] = some set := rfl
  obtain ⟨balanced, -⟩ := eligibility_stays_balanced locked (by simpa using locked') {} (fun _ => false) before
    (show runSteps set [] = some set from rfl)
  have settled := propagate?_eq (Nat.le_of_eq balanced.capacity)
  have after : runSteps set [(home, .propagate)] = some (set.settle home).1 := by
    simp [runSteps, SetCall.run, settled]
  have answered : SetCall.propagate.answer? home set = some (set.settle home).2 := by
    simp [answer?, settled]
  obtain ⟨-, final, -, -, -, returned⟩ := eligibility_stays_balanced locked (by simp [locked, locked']) {} (fun _ => false)
    before after
  exact ⟨home, foreign, diagnostics, diagnostics', lock, lock', locked, locked', set, _, _, before, after, balanced, final,
    answered, returned _ _ rfl _ answered⟩

end ExchangeSet
end Interchange
