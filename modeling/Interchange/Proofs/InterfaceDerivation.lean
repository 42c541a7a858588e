import Interchange.Catalog.Derivation
import Interchange.Proofs.ResolutionGrowth
import Mathlib.Data.List.Perm.Subperm

/-! Derivation among interfaces. The search for a derivation ends unless an interface is
above itself; generalizations are older than what derives from them, so this takes an
abstraction with a family above it. -/

namespace Interchange.Catalog

def Parent (catalog : Catalog) (ty above : TypeId) : Prop :=
  ∃ shape, catalog.shape? ty = some shape ∧ above ∈ shape.parents

abbrev Derives (catalog : Catalog) : TypeId → TypeId → Prop :=
  Relation.ReflTransGen catalog.Parent

variable {catalog later : Catalog} {ty above derived base : TypeId} {shape : Shape}

theorem parent_plain (sound : catalog.Sound) (found : catalog.shape? ty = some shape)
    (member : above ∈ shape.parents) : above.nullable = false := by
  apply sound.plain ty shape found above
  cases shape with
  | secondary => cases member
  | _ => exact member

theorem parent_known (sound : catalog.Sound) (found : catalog.shape? ty = some shape) (member : above ∈ shape.parents) :
    catalog.contains above = true := by
  apply sound.mentioned found
  cases shape with
  | primary | abstraction => simp_all [Shape.parents, Shape.mentions]
  | _ => cases member

theorem parent_abstraction (hierarchical : catalog.Hierarchical) (found : catalog.shape? ty = some shape)
    (member : above ∈ shape.parents) : ∃ name generalizations allowed,
      catalog.shape? above = some (.abstraction name generalizations allowed) := by
  have kind : catalog.kind? above = some .abstraction := by
    cases shape with
    | secondary => cases member
    | _ => exact hierarchical ty _ found above member
  obtain ⟨aboveShape, aboveFound, kind⟩ := shape_of_kind kind
  cases aboveShape <;> cases kind
  exact ⟨_, _, _, aboveFound⟩

theorem anyM_eq_some_true {types : List TypeId} {test : TypeId → Option Bool} (found : types.anyM test = some true) :
    ∃ ty ∈ types, test ty = some true := by
  induction types with
  | nil => cases found
  | cons first rest ih =>
    cases outcome : test first with
    | none => simp [List.anyM, outcome] at found
    | some passed =>
      cases passed with
      | true => exact ⟨first, by simp, outcome⟩
      | false =>
        obtain ⟨ty, member, passed⟩ := ih (by simpa [List.anyM, outcome] using found)
        exact ⟨ty, by simp [member], passed⟩

theorem derives_of_within {depth : Nat} (found : catalog.derivesWithin depth derived base = some true) :
    Derives catalog derived base := by
  induction depth generalizing derived with
  | zero => cases found
  | succ depth ih =>
    simp only [derivesWithin] at found
    split at found
    next same =>
      subst same
      exact .refl
    next =>
      obtain ⟨shape, present, found⟩ := Option.bind_eq_some_iff.mp found
      obtain ⟨parent, member, found⟩ := anyM_eq_some_true found
      exact .head ⟨shape, present, member⟩ (ih found)

theorem Derives.extend (extension : catalog.Extends later) (derives : Derives catalog derived base) :
    Derives later derived base := by
  refine Relation.ReflTransGen.mono ?_ _ _ derives
  rintro lower upper ⟨shape, found, member⟩
  exact ⟨shape, extension.shape found, member⟩

theorem anyM_eq_some_false {types : List TypeId} {test : TypeId → Option Bool} (found : types.anyM test = some false) :
    ∀ ty ∈ types, test ty = some false := by
  induction types with
  | nil => simp
  | cons first rest ih =>
    cases outcome : test first with
    | none => simp [List.anyM, outcome] at found
    | some passed =>
      cases passed with
      | true => simp [List.anyM, outcome] at found
      | false =>
        intro ty member
        rcases List.mem_cons.mp member with rfl | member
        · exact outcome
        · exact ih (by simpa [List.anyM, outcome] using found) ty member

theorem anyM_isSome {types : List TypeId} {test : TypeId → Option Bool} (answered : ∀ ty ∈ types, (test ty).isSome = true) :
    (types.anyM test).isSome = true := by
  induction types with
  | nil => rfl
  | cons first rest ih =>
    obtain ⟨passed, outcome⟩ := Option.isSome_iff_exists.mp (answered first (by simp))
    have others := ih fun ty member => answered ty (by simp [member])
    cases passed <;> simp [List.anyM, outcome, others]

/-- A search that comes to its end without a find has followed all parents. -/
theorem not_derives_of_within {depth : Nat} (found : catalog.derivesWithin depth derived base = some false) :
    ¬ Derives catalog derived base := by
  induction depth generalizing derived with
  | zero => cases found
  | succ depth ih =>
    simp only [derivesWithin] at found
    split at found
    · cases found
    next different =>
      obtain ⟨shape, present, found⟩ := Option.bind_eq_some_iff.mp found
      intro derives
      rcases Relation.ReflTransGen.cases_head derives with same | ⟨above, ⟨other, again, member⟩, rest⟩
      · exact different same
      · cases present.symm.trans again
        exact ih (anyM_eq_some_false found above member) rest

/-- Some interface at or above the type is above itself. -/
def Loops (catalog : Catalog) (ty : TypeId) : Prop :=
  ∃ above, Derives catalog ty above ∧ Relation.TransGen catalog.Parent above above

theorem Loops.parent (loops : catalog.Loops ty) : ∃ above, catalog.Parent ty above ∧ catalog.Loops above := by
  obtain ⟨target, derives, cycle⟩ := loops
  rcases Relation.ReflTransGen.cases_head derives with rfl | ⟨above, parent, rest⟩
  · obtain ⟨above, parent, rest⟩ := Relation.TransGen.head'_iff.mp cycle
    exact ⟨above, parent, ty, rest, cycle⟩
  · exact ⟨above, parent, target, rest, cycle⟩

/-- A search below a cycle does not end, unless it finds what it looks for. -/
theorem derivesWithin_of_loops (loops : catalog.Loops derived) (separate : ¬ Derives catalog derived base) (depth : Nat) :
    catalog.derivesWithin depth derived base = none := by
  induction depth generalizing derived with
  | zero => rfl
  | succ depth ih =>
    obtain ⟨above, parent, loops⟩ := loops.parent
    obtain ⟨shape, present, member⟩ := parent
    have unanswered := ih loops fun derives => separate (.head ⟨shape, present, member⟩ derives)
    cases outcome : catalog.derivesWithin (depth + 1) derived base with
    | none => rfl
    | some answer =>
      cases answer with
      | true => exact absurd (derives_of_within outcome) separate
      | false =>
        simp only [derivesWithin] at outcome
        split at outcome
        · cases outcome
        · rw [present, Option.bind_eq_bind, Option.bind_some] at outcome
          have answered := anyM_eq_some_false outcome above member
          rw [unanswered] at answered
          cases answered

/-- Without a cycle above it, a type is never met twice on one way up, so the search ends before the table does. The
pairs in `path` have been met on the way to `derived`. -/
theorem derivesWithin_ends {depth : Nat} {path : List Nat} (sound : catalog.Sound) (inside : catalog.contains derived = true)
    (loopless : ¬ catalog.Loops derived) (distinct : path.Nodup) (met : ∀ pair ∈ path, pair < catalog.size)
    (below : ∀ lower : TypeId, lower.pair ∈ path → Relation.TransGen catalog.Parent lower derived)
    (deep : catalog.size < depth + path.length) : (catalog.derivesWithin depth derived base).isSome = true := by
  induction depth generalizing derived path with
  | zero =>
    have nested : path ⊆ List.range catalog.size := fun pair member => List.mem_range.mpr (met pair member)
    have bound : path.length ≤ (List.range catalog.size).length := (distinct.subperm nested).length_le
    rw [List.length_range] at bound
    omega
  | succ depth ih =>
    simp only [derivesWithin]
    split
    · rfl
    · obtain ⟨shape, found⟩ := shape_of_contains inside
      rw [found, Option.bind_eq_bind, Option.bind_some]
      apply anyM_isSome
      intro parent member
      have new : derived.pair ∉ path := fun again => loopless ⟨derived, .refl, below derived again⟩
      have step : catalog.Parent derived parent := ⟨shape, found, member⟩
      apply @ih parent (derived.pair :: path)
      · exact parent_known sound found member
      · rintro ⟨target, derives, cycle⟩
        exact loopless ⟨target, .head step derives, cycle⟩
      · exact List.nodup_cons.mpr ⟨new, distinct⟩
      · intro pair listed
        rcases List.mem_cons.mp listed with rfl | listed
        · exact contains_iff.mp inside
        · exact met pair listed
      · intro lower listed
        rcases List.mem_cons.mp listed with same | listed
        · exact .single ⟨shape, (shape?_of_pair same).trans found, member⟩
        · exact (below lower listed).tail step
      · rw [List.length_cons]
        omega

/-- The search tells whether there is a derivation, if no interface above the type is above itself. -/
theorem derivesFrom?_of_loopless (sound : catalog.Sound) (inside : catalog.contains derived = true)
    (loopless : ¬ catalog.Loops derived) :
    catalog.derivesFrom? derived base = some true ∧ Derives catalog derived base ∨
      catalog.derivesFrom? derived base = some false ∧ ¬ Derives catalog derived base := by
  have ended : (catalog.derivesFrom? derived base).isSome = true :=
    derivesWithin_ends sound inside loopless List.nodup_nil (by simp) (by simp) (by simp)
  obtain ⟨answer, found⟩ := Option.isSome_iff_exists.mp ended
  cases answer with
  | true => exact .inl ⟨found, derives_of_within found⟩
  | false => exact .inr ⟨found, not_derives_of_within found⟩

/-- What derives from a type other than itself reaches it through abstractions, each older than the one before. -/
theorem Derives.cases_older (sound : catalog.Sound) (hierarchical : catalog.Hierarchical) (derives : Derives catalog derived base) :
    derived = base ∨ catalog.kind? base = some .abstraction ∧
      (catalog.kind? derived = some .abstraction → base.pair < derived.pair) := by
  induction derives with
  | refl => exact .inl rfl
  | @tail middle above _ parent ih =>
    obtain ⟨shape, found, member⟩ := parent
    obtain ⟨name, generalizations, allowed, aboveFound⟩ := parent_abstraction hierarchical found member
    refine .inr ⟨kind?_of_shape aboveFound, ?_⟩
    have older (kind : catalog.kind? middle = some .abstraction) : above.pair < middle.pair := by
      rw [kind?_of_shape found] at kind
      cases shape <;> cases kind
      exact sound.ordered middle _ found above member
    intro kind
    rcases ih with rfl | ⟨middleKind, before⟩
    · exact older kind
    · exact Nat.lt_trans (older middleKind) (before kind)

theorem Derives.antisymm (sound : catalog.Sound) (hierarchical : catalog.Hierarchical) (forward : Derives catalog derived base)
    (backward : Derives catalog base derived) : derived = base := by
  rcases forward.cases_older sound hierarchical with same | ⟨baseKind, before⟩
  · exact same
  · rcases backward.cases_older sound hierarchical with same | ⟨derivedKind, after⟩
    · exact same.symm
    · have first := before derivedKind
      have second := after baseKind
      omega

/-- Where only abstractions are above others, none of them is above itself. -/
theorem not_loops (sound : catalog.Sound) (hierarchical : catalog.Hierarchical) : ¬ catalog.Loops ty := by
  rintro ⟨target, -, cycle⟩
  obtain ⟨above, parent, rest⟩ := Relation.TransGen.head'_iff.mp cycle
  have same : target = above := Derives.antisymm sound hierarchical (.single parent) rest
  subst same
  obtain ⟨shape, found, member⟩ := parent
  obtain ⟨name, generalizations, allowed, again⟩ := parent_abstraction hierarchical found member
  cases found.symm.trans again
  exact Nat.lt_irrefl _ (sound.ordered target _ found target member)

/-- The search tells whether there is a derivation. -/
theorem derivesFrom?_cases (sound : catalog.Sound) (hierarchical : catalog.Hierarchical)
    (inside : catalog.contains derived = true) :
    catalog.derivesFrom? derived base = some true ∧ Derives catalog derived base ∨
      catalog.derivesFrom? derived base = some false ∧ ¬ Derives catalog derived base :=
  derivesFrom?_of_loopless sound inside (not_loops sound hierarchical)

theorem derivesFrom?_of_derives (sound : catalog.Sound) (hierarchical : catalog.Hierarchical)
    (derives : Derives catalog derived base) : catalog.derivesFrom? derived base = some true := by
  rcases Relation.ReflTransGen.cases_head derives with rfl | ⟨above, ⟨shape, found, member⟩, rest⟩
  · simp [derivesFrom?, derivesWithin]
  · rcases @derivesFrom?_cases catalog derived base sound hierarchical (contains_of_shape found) with
      ⟨answer, -⟩ | ⟨-, separate⟩
    · exact answer
    · exact absurd derives separate

end Interchange.Catalog
