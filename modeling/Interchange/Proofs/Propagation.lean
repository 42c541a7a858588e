import Interchange.Proofs.ExclusionRuns
import Interchange.Proofs.TablePersistence

/-! Propagation. A set that was made for another system, or by no exclusion at all, is looked at in rounds until nobody
has to leave. What is left is the greatest part of it in which nobody has to. -/

namespace Interchange.ExchangeSet

variable {set other final : ExchangeSet} {system : System} {ty : TypeId} {rounds excluded : Nat}

theorem length_types (set : ExchangeSet) : set.types.length = set.remaining := by
  have bits : set.eligible.toList = (List.range set.capacity).map fun pair => set.isEligible (.ofPair pair) := by
    apply List.ext_getElem
    · simp [capacity]
    · intro pair inside _
      have present : pair < set.eligible.size := by simpa using inside
      simp [isEligible, Array.getElem?_eq_getElem present]
  have counted : set.remaining = set.eligible.toList.countP (· == true) := by
    rw [remaining, ← Array.count_toList, List.count]
  rw [counted, bits, List.countP_map, types, List.filter_map, List.length_map, List.countP_eq_length_filter]
  simp [Function.comp_def]

def pending (set : ExchangeSet) (system : System) : List TypeId :=
  set.types.filter (set.leaves system)

theorem stable_iff_idle : set.Stable system ↔ set.pending system = [] := by
  rw [pending, List.filter_eq_nil_iff]
  constructor
  · intro stable ty member
    rw [stable ty (mem_types.mp member).2]
    exact Bool.false_ne_true
  · intro idle ty eligible
    have same : (TypeId.ofPair ty.pair).pair = ty.pair := rfl
    rw [← isEligible_of_pair same] at eligible
    rw [← leaves_of_pair same]
    simpa using idle _ (mem_types.mpr ⟨rfl, eligible⟩)

/-- The rounds of a propagation, and how many pairs they exclude. -/
inductive Rounds (system : System) : ExchangeSet → Nat → ExchangeSet → Nat → Prop where
  | done {set : ExchangeSet} (idle : set.pending system = []) : Rounds system set 0 set 0
  | round {set final : ExchangeSet} {rounds later : Nat} (busy : set.pending system ≠ [])
      (rest : Rounds system (set.excludeAll system (set.pending system)).1 rounds final later) :
      Rounds system set (rounds + 1) final ((set.excludeAll system (set.pending system)).2 + later)

namespace Rounds

theorem stable (run : Rounds system set rounds final excluded) : final.Stable system := by
  induction run with
  | done idle => exact stable_iff_idle.mpr idle
  | round _ _ ih => exact ih

theorem balance (run : Rounds system set rounds final excluded) : final.remaining + excluded = set.remaining := by
  induction run with
  | done => rfl
  | @round set _ _ _ _ _ ih =>
    have first := remaining_excludeAll set system (set.pending system)
    omega

end Rounds

section Universal

variable (universal : system.shape? .any = some .any)

include universal

/-- In every round somebody leaves: the first that has to is still there. -/
theorem round_excludes (busy : set.pending system ≠ []) : 0 < (set.excludeAll system (set.pending system)).2 := by
  obtain ⟨ty, rest, listed⟩ := List.exists_cons_of_ne_nil busy
  have member : ty ∈ set.pending system := by simp [listed]
  obtain ⟨present, leaving⟩ := List.mem_filter.mp member
  have eligible := (mem_types.mp present).2
  have proper := proper_of_leaves universal leaving
  have first : 0 < (set.exclude system ty).2 := by
    simp [exclude, proper, eligible]
  rw [listed]
  exact Nat.lt_of_lt_of_le first (Nat.le_add_right _ _)

theorem settle_rounds (set : ExchangeSet) :
    ∃ rounds ≤ (set.settle system).2, Rounds system set rounds (set.settle system).1 (set.settle system).2 := by
  fun_induction settle set system with
  | case1 set pending round idle =>
    have none : set.pending system = [] := by
      apply Classical.byContradiction
      intro busy
      exact Nat.ne_of_gt (round_excludes universal busy) idle
    have same : round = (set, 0) := by
      have listed : pending = [] := none
      simp only [round, listed, excludeAll]
    rw [same]
    exact ⟨0, Nat.le_refl 0, .done none⟩
  | case2 set pending round progress final excluded result ih =>
    obtain ⟨rounds, bound, run⟩ := ih
    rw [result] at bound run
    refine ⟨rounds + 1, ?_, .round ?_ run⟩
    · have some : 0 < round.2 := Nat.pos_of_ne_zero progress
      simp only at bound ⊢
      omega
    · intro none
      have listed : pending = [] := none
      apply progress
      simp only [round, listed, excludeAll]

theorem Rounds.drops (run : Rounds system set rounds final excluded) : Drops system (fun _ => True) set final := by
  induction run with
  | done => exact .refl
  | round _ _ ih => exact (excludeAll_drops universal fun _ _ _ => trivial).trans ih

/-- Nothing leaves too early: who has to leave a set is in no stable part of it. -/
theorem Rounds.keeps (run : Rounds system set rounds final excluded)
    (rule : other.enumFollowsUnderlying = set.enumFollowsUnderlying) (within : other.Within set) (stable : other.Stable system) :
    other.Within final := by
  induction run with
  | done => exact within
  | @round set _ _ _ _ _ ih =>
    have drops : Drops system (fun pair => other.isEligible (.ofPair pair) = false) set
        (set.excludeAll system (set.pending system)).1 := by
      refine excludeAll_drops universal fun ty member _ => ?_
      obtain ⟨-, leaving⟩ := List.mem_filter.mp member
      have follows := leaves_mono rule within leaving
      cases kept : other.isEligible (.ofPair ty.pair) with
      | false => rfl
      | true =>
        have same : (TypeId.ofPair ty.pair).pair = ty.pair := rfl
        rw [← leaves_of_pair same, stable _ kept] at follows
        cases follows
    exact ih (rule.trans drops.rule.symm) (drops.keeps rule stable (fun _ gone => gone) within)

end Universal

/-- A set without some of its pairs: the types that are gone and those that are left make up all that there were. -/
theorem length_removed (capacity : final.capacity = set.capacity) (within : final.Within set) :
    (set.types.filter fun ty => !final.isEligible ty).length + final.remaining = set.remaining := by
  have left : final.types = set.types.filter final.isEligible := by
    rw [types, types, capacity, List.filter_filter]
    apply List.filter_congr
    intro ty _
    cases kept : final.isEligible ty with
    | false => rfl
    | true => rw [within ty kept]; rfl
  rw [← length_types final, left, ← length_types set, Nat.add_comm, ← List.countP_eq_length_filter,
    ← List.countP_eq_length_filter, List.length_eq_countP_add_countP final.isEligible]
  simp

theorem propagate?_eq (room : set.capacity ≤ system.size) : set.propagate? system = some (set.settle system) := by
  have known : set.types.all system.contains = true := by
    rw [List.all_eq_true]
    intro ty member
    have inside := inside_of_eligible (mem_types.mp member).2
    exact Catalog.contains_iff.mpr (Nat.lt_of_lt_of_le inside room)
  rw [propagate?, if_pos known]

/-- Propagation ends, after no more rounds than it excludes pairs, and leaves the greatest part of the set in which
nobody has to leave. The number it returns is that of the pairs that are gone. A second propagation changes nothing, nor
does the first if the set comes of exclusions on the same system. -/
theorem propagation_leaves_greatest (locked : system.Locked) (counted : set.count = set.remaining)
    (room : set.capacity ≤ system.size) :
    ∃ final excluded, set.propagate? system = some (final, excluded) ∧
      (∃ rounds ≤ excluded, Rounds system set rounds final excluded) ∧
      final.Within set ∧ final.Stable system ∧
      (∀ other : ExchangeSet, other.enumFollowsUnderlying = set.enumFollowsUnderlying → other.Within set → other.Stable system →
        other.Within final) ∧
      excluded = (set.types.filter fun ty => !final.isEligible ty).length ∧
      final.count = final.remaining ∧ final.count + excluded = set.count ∧
      final.propagate? system = some (final, 0) ∧
      (system.Closed → ∀ config reject calls, SetCall.runAll system (withFilter system config reject) calls = some set →
        final = set ∧ excluded = 0) := by
  have universal := locked.universal
  obtain ⟨rounds, bound, run⟩ := @settle_rounds system universal set
  have drops := run.drops universal
  have balance := run.balance
  have removed := length_removed drops.capacity drops.within
  have recounted := drops.counted counted
  refine ⟨_, _, propagate?_eq room, ⟨rounds, bound, run⟩, drops.within, run.stable,
    fun other rule within stable => run.keeps universal rule within stable, by omega, recounted, by omega, ?_, ?_⟩
  · rw [propagate?_eq (drops.capacity ▸ room), run.stable.settle]
  · intro closed config reject calls made
    obtain ⟨first, filtered, -⟩ := @withFilter_stable _ config (fun _ => True) universal closed locked.indexed reject
      fun _ _ _ => trivial
    have capacity : (withFilter system config reject).capacity = system.size := by
      rw [first.capacity]
      simp [full, ExchangeSet.capacity]
    obtain ⟨again, ran, -, stable, -⟩ := @SetCall.runAll_stable _ _ (fun _ => True) universal locked.indexed calls capacity
      filtered fun _ _ _ => trivial
    cases made.symm.trans ran
    rw [stable.settle]
    exact ⟨rfl, rfl⟩

/-- All pairs of another universe of 21 types, none excluded. In the gallery the abstraction without implementations has
to leave, and nothing has to in the set that is made for the gallery. -/
theorem propagation_leaves_greatest_gallery : ∃ system diagnostics, Builder.gallery.lock = some (system, diagnostics) ∧
    system.Locked ∧ system.Closed ∧
    (∃ final excluded, propagate? ⟨.replicate 21 true, 21, false⟩ system = some (final, excluded) ∧ final.Stable system ∧
      final.isEligible (.ofPair 19) = false ∧ excluded ≠ 0 ∧ final.propagate? system = some (final, 0)) ∧
    ∃ set, SetCall.runAll system (withFilter system {} fun _ => false) [.exclude (.ofPair 3)] = some set ∧
      set.propagate? system = some (set, 0) := by
  have shown : (Builder.gallery.lock.map fun result => (result.1.shape? (.ofPair 19), decide (21 ≤ result.1.size))) =
      some (some (.abstraction ⟨0⟩ [] []), true) := by decide +kernel
  obtain ⟨⟨system, diagnostics⟩, lock, found⟩ := Option.map_eq_some_iff.mp shown
  obtain ⟨figure, size⟩ := Prod.mk.inj found
  have locked := System.Locked.of_reached Builder.gallery_reached lock
  have sound := Builder.Reached.locked_sound Builder.gallery_reached lock
  have closed := System.Closed.of_sound sound
  refine ⟨system, diagnostics, lock, locked, closed, ?_, ?_⟩
  · obtain ⟨final, excluded, ran, -, -, stable, -, removed, -, -, again, -⟩ :=
      @propagation_leaves_greatest ⟨.replicate 21 true, 21, false⟩ system locked (by decide) (of_decide_eq_true size)
    have gone : final.isEligible (.ofPair 19) = false := by
      cases kept : final.isEligible (.ofPair 19) with
      | false => rfl
      | true =>
        have stays := stable _ kept
        simp [leaves, figure, mustLeave] at stays
    refine ⟨final, excluded, ran, stable, gone, ?_, again⟩
    have listed : TypeId.ofPair 19 ∈ (types ⟨.replicate 21 true, 21, false⟩).filter fun ty => !final.isEligible ty :=
      List.mem_filter.mpr ⟨mem_types.mpr ⟨rfl, by decide⟩, by simp [gone]⟩
    rw [removed]
    exact Nat.ne_of_gt (List.length_pos_of_mem listed)
  · obtain ⟨set, ran, counted, admissible, -⟩ :=
      run_greatest sound locked.indexed {} (fun _ => false) [.exclude (.ofPair 3)]
    obtain ⟨final, excluded, settled, -, -, -, -, -, -, -, -, made⟩ :=
      propagation_leaves_greatest locked counted (Nat.le_of_eq admissible.capacity)
    obtain ⟨rfl, rfl⟩ := made closed _ _ _ ran
    exact ⟨final, ran, settled⟩

/-- A record with one field, whose type is never registered. -/
def voucher : Builder :=
  Builder.new.replay [.record "Voucher" false {},
    .defineFields (.ofPair 19) [⟨"Holder", .ofPair 100, .nullable, .nullable, {}, none, none⟩]]

/-- The record is fit and nothing that it is made of is excluded, so it starts in the set; but none of its fields is eligible,
and propagation excludes it. -/
theorem propagation_drops_voucher : ∃ system diagnostics, voucher.lock = some (system, diagnostics) ∧ system.Locked ∧
    ¬system.Closed ∧ (withFilter system {} fun _ => false).isEligible (.ofPair 19) = true ∧
    ∃ final excluded, (withFilter system {} fun _ => false).propagate? system = some (final, excluded) ∧
      final.isEligible (.ofPair 19) = false ∧ excluded ≠ 0 := by
  have shown : voucher.lock.any (fun result =>
      (withFilter result.1 {} fun _ => false).isEligible (.ofPair 19) &&
      (withFilter result.1 {} fun _ => false).leaves result.1 (.ofPair 19) &&
      decide ((withFilter result.1 {} fun _ => false).capacity ≤ result.1.size) &&
      (result.1.shape? (.ofPair 19)).any fun shape => shape.components.any fun component => !result.1.contains component) =
      true := by decide +kernel
  obtain ⟨⟨system, diagnostics⟩, lock, shown⟩ := (Option.any_eq_true ..).mp shown
  simp only [Bool.and_eq_true, decide_eq_true_eq] at shown
  obtain ⟨⟨⟨eligible, leaving⟩, room⟩, open'⟩ := shown
  have reached : Builder.ReachedBy (fun _ _ => True) voucher := Builder.ReachedBy.new.replay (by decide +kernel)
  have locked := System.Locked.of_reached reached lock
  obtain ⟨rounds, bound, run⟩ := @settle_rounds system locked.universal (withFilter system {} fun _ => false)
  have drops := run.drops locked.universal
  have gone : (settle (withFilter system {} fun _ => false) system).1.isEligible (.ofPair 19) = false := by
    apply Bool.eq_false_iff.mpr
    intro kept
    have stays := run.stable _ kept
    rw [leaves_mono drops.rule drops.within leaving] at stays
    cases stays
  refine ⟨system, diagnostics, lock, locked, ?_, eligible, _, _, propagate?_eq room, gone, ?_⟩
  · intro closed
    obtain ⟨shape, found, missing⟩ := (Option.any_eq_true ..).mp open'
    obtain ⟨component, member, absent⟩ := List.any_eq_true.mp missing
    rw [closed _ shape found component member] at absent
    cases absent
  · intro none
    rw [none, Nat.le_zero] at bound
    subst bound
    rw [none] at run
    generalize (settle (withFilter system {} fun _ => false) system).1 = final at run gone
    cases run
    rw [eligible] at gone
    cases gone

end Interchange.ExchangeSet
