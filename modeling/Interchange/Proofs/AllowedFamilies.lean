import Interchange.Proofs.InterfaceCycles
import Interchange.Proofs.LockedForms

/-! The families that an abstraction admits. Locking lists the primary interfaces below each abstraction, and
reconciliation prefers a primary interface to an abstraction exactly if it is listed there. -/

namespace Interchange

namespace Shape

theorem addAllowed_again (shape : Shape) (ty : TypeId) : (shape.addAllowed ty).addAllowed ty = shape.addAllowed ty := by
  cases shape with
  | abstraction name generalizations allowed =>
    by_cases listed : ty ∈ allowed <;> simp [addAllowed, adjoin, listed]
  | _ => rfl

end Shape

namespace Catalog

/-- What is above an abstraction is an abstraction. -/
def AbstractAbove (catalog : Catalog) : Prop :=
  ∀ ty name generalizations allowed, catalog.shape? ty = some (.abstraction name generalizations allowed) →
    ∀ above ∈ generalizations, catalog.kind? above = some .abstraction

/-- A primary interface below an abstraction: it implements the abstraction, or one that has it among its
generalizations, directly or further up. -/
structure Implements (catalog : Catalog) (family above : TypeId) : Prop where
  plain : family.nullable = false
  primary : catalog.kind? family = some .primary
  below : Relation.TransGen catalog.Parent family above

def Generalizes (catalog : Catalog) (ty above : TypeId) : Prop :=
  ∃ name generalizations allowed, catalog.shape? ty = some (.abstraction name generalizations allowed) ∧ above ∈ generalizations

/-- The family is listed by the abstraction: it implements it, or one from which generalizations lead there. Nothing but
abstractions is passed on the way. -/
structure Admits (catalog : Catalog) (above family : TypeId) : Prop where
  plain : family.nullable = false
  path : ∃ name fields secondaries abstractions, catalog.shape? family = some (.primary name fields secondaries abstractions) ∧
    ∃ first ∈ abstractions, Relation.ReflTransGen catalog.Generalizes first above

variable {catalog before after filled : Catalog} {ty family above : TypeId} {shape : Shape} {unseen pairs : List Nat}
  {stack : List TypeId} {count : Nat}

theorem Hierarchical.upward (hierarchical : catalog.Hierarchical) : catalog.AbstractAbove := by
  intro ty name generalizations allowed found
  exact hierarchical ty _ found

theorem AbstractAbove.parent_kind (upward : catalog.AbstractAbove) (implementing : catalog.Implementing)
    (parent : catalog.Parent ty above) : catalog.kind? above = some .abstraction := by
  obtain ⟨shape, found, member⟩ := parent
  cases shape with
  | primary => exact implementing ty _ found rfl above member
  | abstraction => exact upward ty _ _ _ found above member
  | _ => cases member

theorem AbstractAbove.acyclic (upward : catalog.AbstractAbove) (sound : catalog.Sound) (implementing : catalog.Implementing) :
    catalog.Acyclic := by
  intro ty cycle
  obtain ⟨above, family, -, parent, -, -, primary⟩ := cycle_through_family sound implementing cycle
  rw [upward.parent_kind implementing parent] at primary
  cases primary

theorem Generalizes.parent (general : catalog.Generalizes ty above) : catalog.Parent ty above := by
  obtain ⟨name, generalizations, allowed, found, member⟩ := general
  exact ⟨_, found, member⟩

theorem derives_of_path (path : Relation.ReflTransGen catalog.Generalizes ty above) : Derives catalog ty above :=
  path.lift id fun _ _ general => Generalizes.parent general

/-- Where only abstractions are above an interface, all ways up are the same. -/
theorem AbstractAbove.admits_iff (upward : catalog.AbstractAbove) (implementing : catalog.Implementing) :
    catalog.Admits above family ↔ catalog.Implements family above := by
  constructor
  · rintro ⟨plain, name, fields, secondaries, abstractions, found, first, member, path⟩
    have climbs : Relation.TransGen catalog.Parent family first := .single ⟨_, found, member⟩
    exact ⟨plain, kind?_of_shape found, climbs.trans_left (derives_of_path path)⟩
  · rintro ⟨plain, primary, below⟩
    obtain ⟨shape, found, kind⟩ := shape_of_kind primary
    cases shape <;> cases kind
    next name fields secondaries abstractions =>
      refine ⟨plain, name, fields, secondaries, abstractions, found, ?_⟩
      induction below with
      | single step =>
        obtain ⟨shape, present, member⟩ := step
        cases found.symm.trans present
        exact ⟨_, member, .refl⟩
      | tail earlier step ih =>
        obtain ⟨first, member, path⟩ := ih
        refine ⟨first, member, path.tail ?_⟩
        obtain ⟨lower, -, last⟩ := Relation.TransGen.tail'_iff.mp earlier
        have kind := upward.parent_kind implementing last
        obtain ⟨shape, present, above⟩ := step
        rw [kind?_of_shape present] at kind
        cases shape <;> cases kind
        exact ⟨_, _, _, present, above⟩

/-- Whatever the search comes by is above a type that it started from. -/
theorem climb_sound (climbed : catalog.climb unseen stack = some pairs) :
    ∀ pair ∈ pairs, ∃ ty ∈ stack, ∃ above : TypeId, above.pair = pair ∧ Relation.ReflTransGen catalog.Generalizes ty above := by
  fun_induction climb catalog unseen stack generalizing pairs with
  | case1 =>
    cases climbed
    simp
  | case2 unseen ty stack unmet name generalizations allowed found ih =>
    obtain ⟨rest, further, rfl⟩ := Option.map_eq_some_iff.mp climbed
    intro pair member
    rcases List.mem_cons.mp member with rfl | member
    · exact ⟨ty, by simp, ty, rfl, .refl⟩
    · obtain ⟨lower, present, above, same, path⟩ := ih further pair member
      rcases List.mem_append.mp present with general | waiting
      · exact ⟨ty, by simp, above, same, .head ⟨_, _, _, found, List.mem_reverse.mp general⟩ path⟩
      · exact ⟨lower, by simp [waiting], above, same, path⟩
  | case3 unseen ty stack unmet shape different found ih =>
    intro pair member
    obtain ⟨lower, present, reached⟩ := ih climbed pair member
    exact ⟨lower, by simp [present], reached⟩
  | case4 => cases climbed
  | case5 unseen ty stack met known ih =>
    intro pair member
    obtain ⟨lower, present, reached⟩ := ih climbed pair member
    exact ⟨lower, by simp [present], reached⟩
  | case6 => cases climbed

/-- Every abstraction that has not been met yet is come by: those to start from, and with each one its generalizations. -/
theorem climb_complete (climbed : catalog.climb unseen stack = some pairs) :
    (∀ ty ∈ stack, catalog.kind? ty = some .abstraction → ty.pair ∈ unseen → ty.pair ∈ pairs) ∧
      ∀ pair ∈ pairs, ∀ above, catalog.Generalizes (.ofPair pair) above → catalog.kind? above = some .abstraction →
        above.pair ∈ unseen → above.pair ∈ pairs := by
  fun_induction climb catalog unseen stack generalizing pairs with
  | case1 =>
    cases climbed
    simp
  | case2 unseen ty stack unmet name generalizations allowed found ih =>
    obtain ⟨rest, further, rfl⟩ := Option.map_eq_some_iff.mp climbed
    obtain ⟨start, closed⟩ := ih further
    -- The pair that has just been met is the only one that the rest of the search leaves out.
    have come {other : TypeId} (fresh : other.pair ∈ unseen)
        (later : other.pair ∈ unseen.erase ty.pair → other.pair ∈ rest) : other.pair ∈ ty.pair :: rest := by
      by_cases same : other.pair = ty.pair
      · exact List.mem_cons.mpr (.inl same)
      · exact List.mem_cons_of_mem _ (later ((List.mem_erase_of_ne same).mpr fresh))
    constructor
    · intro other member abstract fresh
      rcases List.mem_cons.mp member with rfl | member
      · exact List.mem_cons_self
      · exact come fresh (start other (List.mem_append_right _ member) abstract)
    · intro pair member above general abstract fresh
      apply come fresh
      intro remaining
      rcases List.mem_cons.mp member with rfl | member
      · obtain ⟨_, _, _, again, listed⟩ := general
        cases found.symm.trans again
        exact start above (List.mem_append_left _ (List.mem_reverse.mpr listed)) abstract remaining
      · exact closed pair member above general abstract remaining
  | case3 unseen ty stack unmet shape different found ih =>
    obtain ⟨start, closed⟩ := ih climbed
    -- What is skipped is no abstraction, so no abstraction is left out.
    have other_of_abstract {other : TypeId} (abstract : catalog.kind? other = some .abstraction) : other.pair ≠ ty.pair := by
      intro same
      rw [kind?_of_shape ((shape?_of_pair same).trans found)] at abstract
      cases shape <;> cases abstract
      exact different _ _ _ rfl
    have kept {other : TypeId} (abstract : catalog.kind? other = some .abstraction) (fresh : other.pair ∈ unseen) :
        other.pair ∈ unseen.erase ty.pair :=
      (List.mem_erase_of_ne (other_of_abstract abstract)).mpr fresh
    constructor
    · intro other member abstract fresh
      rcases List.mem_cons.mp member with rfl | member
      · exact absurd rfl (other_of_abstract abstract)
      · exact start other member abstract (kept abstract fresh)
    · intro pair member above general abstract fresh
      exact closed pair member above general abstract (kept abstract fresh)
  | case4 => cases climbed
  | case5 unseen ty stack met known ih =>
    obtain ⟨start, closed⟩ := ih climbed
    refine ⟨?_, closed⟩
    intro other member abstract fresh
    rcases List.mem_cons.mp member with rfl | member
    · exact absurd fresh met
    · exact start other member abstract fresh
  | case6 => cases climbed

/-- The search finds the abstractions that a family is listed by, and nothing else. -/
theorem mem_abstractionsOf?_iff {name : Symbol} {fields : List Field} {secondaries abstractions : List TypeId}
    (sound : catalog.Sound) (found : catalog.shape? family = some (.primary name fields secondaries abstractions))
    (climbed : catalog.abstractionsOf? abstractions = some pairs) (plain : above.nullable = false)
    (abstract : catalog.kind? above = some .abstraction) :
    above.pair ∈ pairs ↔ ∃ first ∈ abstractions, Relation.ReflTransGen catalog.Generalizes first above := by
  constructor
  · intro member
    obtain ⟨first, listed, target, same, path⟩ := climb_sound climbed above.pair member
    have start : catalog.Parent family first := ⟨_, found, List.mem_reverse.mp listed⟩
    have climbs : Relation.TransGen catalog.Parent family target := .head' start (derives_of_path path)
    obtain ⟨lower, -, shape, present, last⟩ := Relation.TransGen.tail'_iff.mp climbs
    have own : target = above := TypeId.ext_iff_pair.mpr ⟨same, (parent_plain sound present last).trans plain.symm⟩
    exact ⟨first, List.mem_reverse.mp listed, own ▸ path⟩
  · rintro ⟨first, member, path⟩
    obtain ⟨start, closed⟩ := climb_complete climbed
    have known {ty : TypeId} (abstract : catalog.kind? ty = some .abstraction) : ty.pair ∈ List.range catalog.size := by
      obtain ⟨shape, present, -⟩ := shape_of_kind abstract
      exact List.mem_range.mpr (contains_iff.mp (contains_of_shape present))
    clear plain
    induction path with
    | refl => exact start first (List.mem_reverse.mpr member) abstract (known abstract)
    | @tail middle upper _ step ih =>
      obtain ⟨name, generalizations, allowed, present, above⟩ := step
      have same : catalog.shape? (.ofPair middle.pair) = some (.abstraction name generalizations allowed) :=
        (shape?_of_pair rfl).trans present
      exact closed middle.pair (ih (kind?_of_shape present)) upper ⟨_, _, _, same, above⟩ abstract (known abstract)

/-- Entering a family twice is entering it once. -/
theorem allow_shape? (family : TypeId) (pairs : List Nat) (ty : TypeId) : (catalog.allow family pairs).shape? ty =
    (catalog.shape? ty).map fun shape => if ty.pair ∈ pairs then shape.addAllowed family else shape := by
  induction pairs generalizing catalog with
  | nil => simp [allow]
  | cons pair rest ih =>
    change ((catalog.modifyShape (.ofPair pair) fun shape => shape.addAllowed family).allow family rest).shape? ty = _
    rw [ih, modifyShape_shape?]
    by_cases here : pair = ty.pair <;> by_cases later : ty.pair ∈ rest
    all_goals simp [here, later, eq_comm, Shape.addAllowed_again, Function.comp_def]

/-- What an abstraction lists once the families before `count` have been entered. -/
structure Lists (catalog : Catalog) (count : Nat) (above : TypeId) (allowed : List TypeId) : Prop where
  members : ∀ family, family ∈ allowed ↔ family.pair < count ∧ catalog.Admits above family
  ordered : allowed.Pairwise fun first second => first.pair < second.pair

namespace Lists

variable {allowed : List TypeId}

theorem enter (lists : catalog.Lists count above allowed) (admits : catalog.Admits above (.ofPair count)) :
    catalog.Lists (count + 1) above (Shape.adjoin allowed (.ofPair count)) := by
  have fresh : TypeId.ofPair count ∉ allowed := fun member => Nat.lt_irrefl _ ((lists.members _).mp member).1
  have appended : Shape.adjoin allowed (.ofPair count) = allowed ++ [.ofPair count] := by simp [Shape.adjoin, fresh]
  rw [appended]
  constructor
  · intro family
    rw [List.mem_append, List.mem_singleton, lists.members]
    constructor
    · rintro (⟨earlier, own⟩ | rfl)
      · exact ⟨by omega, own⟩
      · exact ⟨Nat.lt_succ_self count, admits⟩
    · rintro ⟨bound, own⟩
      by_cases earlier : family.pair < count
      · exact .inl ⟨earlier, own⟩
      · have same : family.pair = count := by omega
        exact .inr (TypeId.ext_iff_pair.mpr ⟨same, own.plain⟩)
  · rw [List.pairwise_append]
    refine ⟨lists.ordered, List.pairwise_singleton _ _, ?_⟩
    intro family member other last
    rw [List.mem_singleton.mp last]
    exact ((lists.members family).mp member).1

theorem skip (lists : catalog.Lists count above allowed) (separate : ¬ catalog.Admits above (.ofPair count)) :
    catalog.Lists (count + 1) above allowed := by
  refine ⟨?_, lists.ordered⟩
  intro family
  rw [lists.members]
  constructor
  · rintro ⟨earlier, own⟩
    exact ⟨by omega, own⟩
  · rintro ⟨bound, own⟩
    refine ⟨?_, own⟩
    by_contra last
    have same : family = .ofPair count := TypeId.ext_iff_pair.mpr ⟨by simp only [TypeId.ofPair_pair]; omega, own.plain⟩
    exact separate (same ▸ own)

theorem mem_iff (lists : catalog.Lists catalog.size above allowed) : family ∈ allowed ↔ catalog.Admits above family := by
  rw [lists.members]
  refine ⟨And.right, fun admits => ⟨?_, admits⟩⟩
  obtain ⟨-, _, _, _, _, found, -⟩ := admits
  exact contains_iff.mp (contains_of_shape found)

end Lists

/-- Family by family in the order of registration, the abstractions above each of them list it. -/
theorem foldlM_lists (sound : catalog.Sound) (draft : catalog.Draft)
    (entered : ((List.range count).map TypeId.ofPair).foldlM (fun filled family =>
      match catalog.shape? family with
      | some (.primary _ _ _ abstractions) => (catalog.abstractionsOf? abstractions).map (filled.allow family)
      | _ => some filled) catalog = some filled)
    {name : Symbol} {generalizations allowed : List TypeId} (plain : above.nullable = false)
    (abstract : catalog.kind? above = some .abstraction)
    (found : filled.shape? above = some (.abstraction name generalizations allowed)) :
    catalog.Lists count above allowed := by
  induction count generalizing filled allowed with
  | zero =>
    cases entered
    obtain ⟨entry, present, same⟩ := shape?_eq_some_iff.mp found
    have bare : entry.shape.allowed = [] := (draft entry (Array.mem_of_getElem? present)).allowed
    rw [same] at bare
    cases bare
    exact ⟨by simp, .nil⟩
  | succ count ih =>
    rw [List.range_succ, List.map_append, List.foldlM_append] at entered
    obtain ⟨earlier, before, last⟩ := Option.bind_eq_some_iff.mp entered
    simp only [List.map_cons, List.map_nil, List.foldlM_cons, List.foldlM_nil, bind_pure] at last
    split at last
    next abstractions shaped =>
      obtain ⟨pairs, climbed, rfl⟩ := Option.map_eq_some_iff.mp last
      have reaches := mem_abstractionsOf?_iff sound shaped climbed plain abstract
      rw [allow_shape?] at found
      obtain ⟨shape, present, same⟩ := Option.map_eq_some_iff.mp found
      split at same
      next member =>
        cases shape <;> cases same
        exact (ih before present).enter ⟨rfl, _, _, _, _, shaped, reaches.mp member⟩
      next absent =>
        subst same
        refine (ih before present).skip ?_
        rintro ⟨-, _, _, _, _, again, path⟩
        cases shaped.symm.trans again
        exact absent (reaches.mpr path)
    next other =>
      cases last
      refine (ih before found).skip ?_
      rintro ⟨-, _, _, _, _, shaped, -⟩
      exact other _ _ _ _ shaped

/-- The search for policies changes fields only. -/
theorem PolicySteps.abstraction {name : Symbol} {generalizations allowed : List TypeId} (steps : PolicySteps before after)
    (found : before.shape? ty = some (.abstraction name generalizations allowed)) :
    after.shape? ty = some (.abstraction name generalizations allowed) := by
  induction steps with
  | refl => exact found
  | tail _ step ih =>
    cases step with
    | fields target policies =>
      rw [setFieldPolicies, modifyShape_shape?, ih]
      split <;> rfl
    | own target policy =>
      rw [settlePolicy, modifyEntry_shape?, ih]
      exact fun _ => rfl

/-- Of two interfaces the first is kept if it derives from the second. -/
theorem resolveFamilies_left_iff {clash : Conflict} (sound : catalog.Sound) (acyclic : catalog.Acyclic)
    (different : family ≠ above)
    (familyKnown : catalog.contains family = true) (aboveKnown : catalog.contains above = true) :
    (catalog.resolveFamilies family above clash).map Prod.fst = .ok family ↔ Relation.TransGen catalog.Parent family above := by
  have proper : Derives catalog family above ↔ Relation.TransGen catalog.Parent family above :=
    Relation.reflTransGen_iff_eq_or_transGen.trans (or_iff_right fun same => different same.symm)
  rw [← proper]
  rcases @derivesFrom?_of_loopless catalog family above sound familyKnown acyclic.not_loops with
    ⟨found, derives⟩ | ⟨found, separate⟩
  · simp [resolveFamilies, different, found, derives, Except.map]
  · rcases @derivesFrom?_of_loopless catalog above family sound aboveKnown acyclic.not_loops with ⟨again, -⟩ | ⟨again, -⟩
    · simp [resolveFamilies, different, different.symm, found, again, separate, Except.map]
    · simp [resolveFamilies, different, found, again, separate, Except.map]

/-- A primary interface and an abstraction are reconciled by what derives from what. -/
theorem resolveWithin_interfaces {depth : Nat} (sound : catalog.Sound) (primary : catalog.kind? family = some .primary)
    (abstraction : catalog.kind? above = some .abstraction) (familyPlain : family.nullable = false)
    (abovePlain : above.nullable = false) :
    (catalog.resolveWithin (depth + 1) family above).map Prod.fst =
      (catalog.resolveFamilies family above (.clash .incompatible family above)).map Prod.fst := by
  obtain ⟨lower, familyFound, familyKind⟩ := shape_of_kind primary
  obtain ⟨upper, aboveFound, aboveKind⟩ := shape_of_kind abstraction
  cases lower <;> cases familyKind
  cases upper <;> cases aboveKind
  have different : family ≠ above := by
    rintro rfl
    cases familyFound.symm.trans aboveFound
  have proper {ty : TypeId} {shape : Shape} (found : catalog.shape? ty = some shape) (named : shape ≠ .any) :
      ty.isAny = false := by
    rw [TypeId.isAny_eq_false_iff]
    intro first
    exact named (Option.some.inj (found.symm.trans (sound.universal first)))
  rw [resolveWithin, TypeId.nonNull_of_plain familyPlain, TypeId.nonNull_of_plain abovePlain, familyPlain, abovePlain,
    resolveShapes_eq_follow different (proper familyFound (by simp)) (proper aboveFound (by simp)) familyFound aboveFound]
  change (catalog.resolveFamilies family above (.clash .incompatible family above) >>= _).map Prod.fst = _
  have familyKept := TypeId.nonNull_of_plain familyPlain
  have aboveKept := TypeId.nonNull_of_plain abovePlain
  simp only [resolveFamilies, if_neg different]
  cases catalog.derivesFrom? family above with
  | none => rfl
  | some derives =>
    cases derives with
    | true => exact congrArg Except.ok familyKept
    | false =>
      cases catalog.derivesFrom? above family with
      | none => rfl
      | some derives =>
        cases derives with
        | true => exact congrArg Except.ok aboveKept
        | false => rfl

end Catalog

namespace Builder

open Catalog

variable {builder : Builder} {system : System} {diagnostics : Diagnostics} {family above : TypeId}

/-- The families that a locked abstraction lists. -/
theorem lock_lists (reached : builder.Reached)
    (locked : builder.lock = some (system, diagnostics)) {name : Symbol} {generalizations allowed : List TypeId}
    (plain : above.nullable = false) (found : system.shape? above = some (.abstraction name generalizations allowed)) :
    builder.catalog.Lists builder.size above allowed := by
  have sound := Reached.sound reached
  obtain ⟨filled, formed, final, passes⟩ := Reached.passes reached
  have edits : Edits (fun _ _ => True) builder.catalog filled := withAllowed_edits passes.allowed
  cases (lock_of_passes passes).symm.trans locked
  have found : final.shape? above = some (.abstraction name generalizations allowed) := found
  have later : Edits (fun _ _ => False) filled final :=
    (settleFrom_edits (edits.sound sound) passes.forms).trans (withPolicies_steps passes.policies).edits
  obtain ⟨shape, present⟩ := shape_of_contains (later.named_known found rfl)
  have kind := later.kind (kind?_of_shape present)
  rw [kind?_of_shape found] at kind
  cases shape <;> cases kind
  cases found.symm.trans ((withPolicies_steps passes.policies).abstraction (passes.settles.shapes _ _ present))
  obtain ⟨first, origin⟩ := shape_of_contains (contains_iff.mpr (passes.fills.size ▸ contains_iff.mp (contains_of_shape present)))
  have abstract := edits.kind (kind?_of_shape origin)
  rw [kind?_of_shape present] at abstract
  exact foldlM_lists sound (Reached.draft reached) passes.allowed plain ((kind?_of_shape origin).trans abstract.symm) present

theorem resolvePair_family_iff (reached : builder.Reached) (upward : builder.catalog.AbstractAbove)
    (primary : builder.catalog.kind? family = some .primary) (abstraction : builder.catalog.kind? above = some .abstraction)
    (familyPlain : family.nullable = false) (abovePlain : above.nullable = false) :
    (builder.resolvePair family above).map Prod.fst = .ok family ↔
      Relation.TransGen builder.catalog.Parent family above := by
  have sound := Reached.sound reached
  have forgets : (builder.resolvePair family above).map Prod.fst = (builder.catalog.resolvePair family above).map Prod.fst := by
    rw [resolvePair]
    cases builder.catalog.resolvePair family above <;> rfl
  have inside {ty : TypeId} {kind : Kind} (found : builder.catalog.kind? ty = some kind) : builder.catalog.contains ty = true :=
    contains_of_shape (shape_of_kind found).choose_spec.1
  have different : family ≠ above := by
    rintro rfl
    rw [primary] at abstraction
    cases abstraction
  rw [forgets, Catalog.resolvePair, resolveWithin_interfaces sound primary abstraction familyPlain abovePlain]
  exact resolveFamilies_left_iff sound (upward.acyclic sound (Reached.implementing reached)) different (inside primary)
    (inside abstraction)

/-- Locking lists with each abstraction the primary interfaces below it, each once and in the order of registration.
These are the ones that reconciliation prefers to the abstraction. -/
theorem allowed_iff_preferred (reached : builder.Reached) (upward : builder.catalog.AbstractAbove) :
    ∃ system, builder.lock = some (system, builder.diagnostics) ∧ ∀ above, above.nullable = false →
      (system.catalog.kind? above = some .abstraction ↔ builder.catalog.kind? above = some .abstraction) ∧
      ∀ name generalizations allowed, system.shape? above = some (.abstraction name generalizations allowed) →
        (∀ family, family ∈ allowed ↔ builder.catalog.Implements family above) ∧
        (allowed.Pairwise fun first second => first.pair < second.pair) ∧
        ∀ family, family.nullable = false → builder.catalog.kind? family = some .primary →
          ((builder.resolvePair family above).map Prod.fst = .ok family ↔ family ∈ allowed) := by
  obtain ⟨system, locked, -⟩ := Reached.locked reached
  refine ⟨system, locked, ?_⟩
  intro above plain
  have edits : Edits (fun _ _ => False) builder.catalog system.catalog := (lock_edits (Reached.sound reached) locked).1
  have kinds : system.catalog.kind? above = some .abstraction ↔ builder.catalog.kind? above = some .abstraction := by
    refine ⟨?_, edits.kind⟩
    intro kind
    obtain ⟨shape, found, abstraction⟩ := shape_of_kind kind
    cases shape <;> cases abstraction
    obtain ⟨old, present⟩ := shape_of_contains (edits.named_known found rfl)
    have same := edits.kind (kind?_of_shape present)
    rw [kind] at same
    rw [kind?_of_shape present, same]
  refine ⟨kinds, ?_⟩
  intro name generalizations allowed found
  have lists := lock_lists reached locked plain found
  have members (family : TypeId) : family ∈ allowed ↔ builder.catalog.Implements family above :=
    lists.mem_iff.trans (upward.admits_iff (Reached.implementing reached))
  refine ⟨members, lists.ordered, ?_⟩
  intro family familyPlain primary
  rw [members, resolvePair_family_iff reached upward primary (kinds.mp (kind?_of_shape found)) familyPlain plain]
  exact ⟨fun below => ⟨familyPlain, primary, below⟩, Implements.below⟩

/-- Two abstractions with one above both, a family that implements the two, one that implements the first, and one that
implements nothing. -/
def diamond : Builder :=
  Builder.new.replay [.abstraction "Vehicle" [] {}, .primary "Bicycle" {}, .abstraction "Boat" [.ofPair 19] {},
    .abstraction "Car" [.ofPair 19] {}, .primary "Amphibian" {}, .primary "House" {}, .implement (.ofPair 23) (.ofPair 22),
    .implement (.ofPair 20) (.ofPair 19), .implement (.ofPair 23) (.ofPair 21)]

theorem diamond_reached : diamond.OrderlyReached :=
  ReachedBy.new.replay (by decide +kernel)

theorem allowed_iff_preferred_diamond : diamond.Reached ∧ diamond.catalog.AbstractAbove ∧
    ∃ system, diamond.lock = some (system, diamond.diagnostics) ∧
      ∃ name generalizations allowed, system.shape? (.ofPair 19) = some (.abstraction name generalizations allowed) ∧
        (allowed.Pairwise fun first second => first.pair < second.pair) ∧ diamond.catalog.Implements (.ofPair 23) (.ofPair 19) ∧
        .ofPair 20 ∈ allowed ∧ .ofPair 23 ∈ allowed ∧ .ofPair 24 ∉ allowed ∧
        ¬ diamond.catalog.Implements (.ofPair 24) (.ofPair 19) := by
  have reached := OrderlyReached.reached diamond_reached
  have upward := (OrderlyReached.hierarchical diamond_reached).upward
  obtain ⟨system, locked, laws⟩ := allowed_iff_preferred reached upward
  obtain ⟨kinds, lists⟩ := laws (.ofPair 19) rfl
  obtain ⟨shape, found, kind⟩ := shape_of_kind (kinds.mpr (by decide +kernel))
  cases shape <;> cases kind
  next name generalizations allowed =>
    obtain ⟨members, ordered, preferred⟩ := lists name generalizations allowed found
    have bicycle : .ofPair 20 ∈ allowed := (preferred _ rfl (by decide +kernel)).mp (by decide +kernel)
    have amphibian : .ofPair 23 ∈ allowed := (preferred _ rfl (by decide +kernel)).mp (by decide +kernel)
    have house : .ofPair 24 ∉ allowed := by
      rw [← preferred _ rfl (by decide +kernel)]
      decide +kernel
    exact ⟨reached, upward, system, locked, name, generalizations, allowed, found, ordered, (members _).mp amphibian, bicycle,
      amphibian, house, fun own => house ((members _).mpr own)⟩

end Builder
end Interchange
