import Interchange.Proofs.NamingRecursion

/-! The rules of naming, kind by kind. A type is named by the rule of its kind, from the names of what it is made of; a
union lists the members that are eligible. Nothing is remembered here, and nothing is shared with the naming of a set. -/

namespace Interchange

namespace Naming

def component (names : TypeId → Option NameEntry) (ty : TypeId) (label : Option String) : Option (NamedPart × Bool) := do
  let entry ← names ty
  return (⟨ty, if ty.nullable then entry.nullableName else entry.name, label⟩, entry.subsetDependent)

/-- What the rule of its kind answers for a shape; nothing if a component has no name. -/
def rule (naming : Naming) (set : ExchangeSet) (context : NameContext) (names : TypeId → Option NameEntry) :
    Shape → Option (Option String × Bool)
  | .any => return (naming.any context, false)
  | .basic basic => return (naming.basic context basic, false)
  | .enumeration .. => return (naming.enumeration context, false)
  | .record .. => return (naming.record context, false)
  | .primary .. => return (naming.primary context, false)
  | .abstraction .. => return (naming.abstraction context, false)
  | .secondary _ primary => do
    let (primary, dependent) ← component names primary none
    return (naming.secondary context primary.name, dependent)
  | .tuple elements => do
    let parts ← elements.mapM fun element => component names element.ty (element.label.bind context.system.catalog.strings.get?)
    return (naming.tuple context (parts.map Prod.fst), parts.any Prod.snd)
  | .array item => do
    let (item, dependent) ← component names item none
    return (naming.array context item, dependent)
  | .list item _ => do
    let (item, dependent) ← component names item none
    return (naming.list context item, dependent)
  | .set item _ => do
    let (item, dependent) ← component names item none
    return (naming.set context item, dependent)
  | .dictionary key value _ => do
    let (key, keyDependent) ← component names key none
    let (value, valueDependent) ← component names value none
    return (naming.dictionary context key value, keyDependent || valueDependent)
  | .union members => do
    let parts ← (members.filter set.isEligible).mapM fun member => component names member none
    return (naming.union context (parts.map Prod.fst), true)

/-- The names of a type that is not nested deeper than the given number of levels. Neither of them may be blank. -/
def ruledWithin (naming : Naming) (system : System) (config : Config) (set : ExchangeSet) : Nat → TypeId → Option NameEntry
  | 0, _ => none
  | depth + 1, ty => do
    let shape ← system.shape? ty
    let context : NameContext := ⟨system, config, ty.nonNull⟩
    let (answer, dependent) ← naming.rule set context (naming.ruledWithin system config set depth) shape
    let name ← answer.filter fun name => !Text.isBlank name
    let nullableName ← (naming.nullable context name).filter fun name => !Text.isBlank name
    return ⟨name, nullableName, dependent⟩

end Naming

namespace Namer

open Naming

theorem toOption_bind {ε α β : Type} (action : Except ε α) (next : α → Except ε β) :
    (action >>= next).toOption = action.toOption.bind fun value => (next value).toOption := by
  cases action <;> rfl

/-- The names of the parts, when it does not matter why there are none. -/
theorem plainParts_toOption (plain : TypeId → Except Error NameEntry) (parts : List (TypeId × Option String)) :
    (plainParts plain parts).toOption =
      (parts.mapM fun part => component (fun ty => (plain ty).toOption) part.1 part.2).map fun named =>
        (named.map Prod.fst, named.any Prod.snd) := by
  induction parts with
  | nil => rfl
  | cons part rest ih =>
    obtain ⟨ty, label⟩ := part
    simp only [plainParts, toOption_bind, ih, List.mapM_cons]
    generalize rest.mapM (fun part => component (fun ty => (plain ty).toOption) part.1 part.2) = others
    cases named : (plain ty).toOption with
    | none => simp [component, named]
    | some entry =>
      simp only [component, named]
      cases others <;> rfl

/-- The rule for a shape gives what the naming makes of the names of its parts. -/
theorem rule_eq (namer : Namer) (plain : TypeId → Except Error NameEntry) (ty : TypeId) (shape : Shape) :
    namer.naming.rule namer.set ⟨namer.system, namer.config, ty⟩ (fun ty => (plain ty).toOption) shape =
      (plainParts plain (namer.parts shape)).toOption.map fun listed =>
        (namer.naming.nameShape ⟨namer.system, namer.config, ty⟩ shape listed.1, listed.2 || shape.kind == .union) := by
  rw [plainParts_toOption]
  generalize (fun ty => (plain ty).toOption) = names
  cases shape with
  | any | basic | enumeration | record | primary | abstraction => rfl
  | secondary name item | array item | list item form | set item form =>
    simp only [rule, parts, Shape.parts, List.map_cons, List.map_nil, List.mapM_cons, List.mapM_nil]
    cases component names item none <;> simp [nameShape, Shape.kind]
  | tuple elements =>
    simp only [rule, parts, List.mapM_map, Function.comp_def]
    cases elements.mapM fun element => component names element.ty (element.label.bind namer.system.catalog.strings.get?) <;>
      simp [nameShape, Shape.kind]
  | dictionary key value form =>
    simp only [rule, parts, Shape.parts, List.map_cons, List.map_nil, List.mapM_cons, List.mapM_nil]
    cases component names key none <;> cases component names value none <;> simp [nameShape, Shape.kind]
  | union members =>
    simp only [rule, parts, List.mapM_map, Function.comp_def]
    cases (members.filter namer.set.isEligible).mapM fun member => component names member none <;> simp [nameShape, Shape.kind]

theorem check_toOption (namer : Namer) (ty : TypeId) (shape : Shape) (answer : Option String) :
    (namer.check ty shape answer).toOption = answer.filter fun name => !Text.isBlank name := by
  cases answer with
  | none => rfl
  | some name => cases blank : Text.isBlank name <;> simp [check, blank, Except.toOption, Option.filter]

/-- The recursion over parts follows the rules of the kinds. -/
theorem ruledWithin_eq (namer : Namer) (depth : Nat) (ty : TypeId) :
    namer.naming.ruledWithin namer.system namer.config namer.set depth ty = (namer.plainWithin depth ty).toOption := by
  induction depth generalizing ty with
  | zero => rfl
  | succ depth ih =>
    have inner : namer.naming.ruledWithin namer.system namer.config namer.set depth =
        fun ty => (namer.plainWithin depth ty).toOption := funext ih
    simp only [ruledWithin, plainWithin, inner, rule_eq]
    cases namer.system.shape? ty with
    | none => rfl
    | some shape =>
      simp only [makeEntry, toOption_bind, check_toOption, Option.bind_eq_bind, Option.bind_some]
      generalize (plainParts (namer.plainWithin depth) (namer.parts shape)).toOption = listed
      cases listed <;> rfl

end Namer
end Interchange
