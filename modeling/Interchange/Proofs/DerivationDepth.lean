import Interchange.Proofs.InterfaceDerivation

/-! How far the search for a derivation has to go. An answer that comes at all comes within as many steps as there are
types, also where an interface is above itself, so a table that has grown gives the answers it gave before. -/

namespace Interchange.Catalog

variable {catalog later : Catalog} {derived base other : TypeId} {depth further : Nat} {types : List TypeId}
  {test wider : TypeId → Option Bool} {answer : Bool}

theorem anyM_congr (agree : ∀ ty ∈ types, test ty = wider ty) : types.anyM test = types.anyM wider := by
  induction types with
  | nil => rfl
  | cons first rest ih => simp only [List.anyM, agree first (by simp), ih fun ty member => agree ty (by simp [member])]

/-- If a test that answers more often is the first to get through a list, some item made the difference. -/
theorem anyM_cases (keeps : ∀ ty answer, test ty = some answer → wider ty = some answer) :
    types.anyM wider = types.anyM test ∨ types.anyM test = none ∧ ∃ ty ∈ types, test ty = none ∧ wider ty ≠ none := by
  induction types with
  | nil => exact .inl rfl
  | cons first rest ih =>
    cases outcome : test first with
    | none =>
      cases again : wider first with
      | none => exact .inl (by simp [List.anyM, outcome, again])
      | some passed => exact .inr ⟨by simp [List.anyM, outcome], first, by simp, outcome, by simp [again]⟩
    | some passed =>
      cases passed with
      | true => exact .inl (by simp [List.anyM, outcome, keeps first true outcome])
      | false =>
        simp only [List.anyM, outcome, keeps first false outcome, Option.bind_eq_bind, Option.bind_some]
        rcases ih with same | ⟨missing, ty, member, change⟩
        · exact .inl same
        · exact .inr ⟨missing, ty, by simp [member], change⟩

/-- A search that ends gives its answer with more steps too. -/
theorem derivesWithin_succ (found : catalog.derivesWithin depth derived base = some answer) :
    catalog.derivesWithin (depth + 1) derived base = some answer := by
  induction depth generalizing derived answer with
  | zero => cases found
  | succ depth ih =>
    rw [derivesWithin] at found ⊢
    split
    next same =>
      rw [if_pos same] at found
      exact found
    next different =>
      rw [if_neg different] at found
      obtain ⟨shape, present, found⟩ := Option.bind_eq_some_iff.mp found
      rw [present, Option.bind_eq_bind, Option.bind_some]
      rcases @anyM_cases shape.parents (fun parent => catalog.derivesWithin depth parent base)
        (fun parent => catalog.derivesWithin (depth + 1) parent base) fun _ _ earlier => ih earlier with same | ⟨missing, -⟩
      · exact same.trans found
      · rw [missing] at found
        cases found

/-- A search that needs all of its steps passes on to a parent whose search needs all of the rest. -/
theorem late_parent (late : catalog.derivesWithin (depth + 1) derived base = none)
    (found : catalog.derivesWithin (depth + 2) derived base ≠ none) :
    ∃ above, catalog.Parent derived above ∧ catalog.derivesWithin depth above base = none ∧
      catalog.derivesWithin (depth + 1) above base ≠ none := by
  rw [derivesWithin] at late found
  by_cases same : derived = base
  · rw [if_pos same] at late
    cases late
  rw [if_neg same] at late found
  cases present : catalog.shape? derived with
  | none => simp [present] at found
  | some shape =>
    rw [present, Option.bind_eq_bind, Option.bind_some] at late found
    rcases @anyM_cases shape.parents (fun parent => catalog.derivesWithin depth parent base)
      (fun parent => catalog.derivesWithin (depth + 1) parent base) fun _ _ earlier => derivesWithin_succ earlier with
      same | ⟨-, above, member, missing, answered⟩
    · exact absurd (same.trans late) found
    · exact ⟨above, ⟨shape, present, member⟩, missing, answered⟩

/-- On a way up along late answers each type is answered one step earlier than the one before, so that none comes twice. -/
theorem late_path (sound : catalog.Sound) (inside : catalog.contains derived = true) (plain : derived.nullable = false)
    (late : catalog.derivesWithin depth derived base = none) (found : catalog.derivesWithin (depth + 1) derived base ≠ none) :
    ∃ path : List Nat, path.Nodup ∧ path.length = depth + 1 ∧
      ∀ pair ∈ path, pair < catalog.size ∧ catalog.derivesWithin (depth + 1) (.ofPair pair) base ≠ none := by
  have own {ty : TypeId} (plain : ty.nullable = false) : TypeId.ofPair ty.pair = ty := TypeId.ext_iff_pair.mpr ⟨rfl, plain.symm⟩
  induction depth generalizing derived with
  | zero =>
    refine ⟨[derived.pair], by simp, rfl, ?_⟩
    intro pair member
    cases List.mem_singleton.mp member
    rw [own plain]
    exact ⟨contains_iff.mp inside, found⟩
  | succ depth ih =>
    obtain ⟨above, ⟨shape, present, member⟩, missing, answered⟩ := late_parent late found
    obtain ⟨path, distinct, length, met⟩ :=
      ih (parent_known sound present member) (parent_plain sound present member) missing answered
    refine ⟨derived.pair :: path, List.nodup_cons.mpr ⟨?_, distinct⟩, by simp [length], ?_⟩
    · intro again
      have early := (met derived.pair again).2
      rw [own plain] at early
      exact early late
    · intro pair listed
      rcases List.mem_cons.mp listed with rfl | listed
      · rw [own plain]
        exact ⟨contains_iff.mp inside, found⟩
      · obtain ⟨bound, early⟩ := met pair listed
        obtain ⟨answer, early⟩ := Option.ne_none_iff_exists'.mp early
        refine ⟨bound, ?_⟩
        rw [derivesWithin_succ early]
        simp

/-- After as many steps as there are types the answer is settled. -/
theorem derivesWithin_settled (sound : catalog.Sound) (inside : catalog.contains derived = true)
    (plain : derived.nullable = false) (deep : catalog.size ≤ depth) :
    catalog.derivesWithin depth derived base = catalog.derivesWithin catalog.size derived base := by
  induction deep with
  | refl => rfl
  | @step depth deep ih =>
    rw [← ih]
    cases outcome : catalog.derivesWithin depth derived base with
    | some answer => exact derivesWithin_succ outcome
    | none =>
      by_contra found
      obtain ⟨path, distinct, length, met⟩ := late_path sound inside plain outcome found
      have nested : path ⊆ List.range catalog.size := fun pair member => List.mem_range.mpr (met pair member).1
      have bound : path.length ≤ (List.range catalog.size).length := (distinct.subperm nested).length_le
      rw [List.length_range, length] at bound
      exact Nat.not_succ_le_self depth (Nat.le_trans bound deep)

/-- A later table is searched like the earlier one, and two targets are not told apart unless one of its types is one of them. -/
theorem derivesWithin_extend (extension : catalog.Extends later) (sound : catalog.Sound)
    (same : ∀ ty, catalog.contains ty = true → (ty = base ↔ ty = other)) (inside : catalog.contains derived = true) :
    later.derivesWithin depth derived base = catalog.derivesWithin depth derived other := by
  induction depth generalizing derived with
  | zero => rfl
  | succ depth ih =>
    obtain ⟨shape, found⟩ := shape_of_contains inside
    simp only [derivesWithin, same derived inside, extension.shape found, found, Option.bind_eq_bind, Option.bind_some]
    split
    · rfl
    · exact anyM_congr fun parent member => ih (parent_known sound found member)

theorem Extends.size_le (extension : catalog.Extends later) : catalog.size ≤ later.size := by
  by_contra shorter
  have inside : catalog.contains (.ofPair later.size) = true := contains_iff.mpr (by simpa [TypeId.ofPair] using shorter)
  have kept := contains_iff.mp (extension.contains inside)
  exact Nat.lt_irrefl _ kept

/-- The search for a derivation of an old type goes on as it did in the earlier table. -/
theorem Extends.derivesFrom? (extension : catalog.Extends later) (sound : catalog.Sound)
    (same : ∀ ty, catalog.contains ty = true → (ty = base ↔ ty = other)) (inside : catalog.contains derived = true)
    (plain : derived.nullable = false) : later.derivesFrom? derived base = catalog.derivesFrom? derived other := by
  have longer := extension.size_le
  calc later.derivesWithin (later.size + 1) derived base
    _ = catalog.derivesWithin (later.size + 1) derived other := derivesWithin_extend extension sound same inside
    _ = catalog.derivesWithin catalog.size derived other := derivesWithin_settled sound inside plain (by omega)
    _ = catalog.derivesWithin (catalog.size + 1) derived other := (derivesWithin_settled sound inside plain (by omega)).symm

end Interchange.Catalog
