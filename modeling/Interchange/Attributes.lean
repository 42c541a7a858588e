import Interchange.Json.Reader

/-! Attributes attached to the declaration of a type or a member. -/

namespace Interchange

open Json (Value Reader)

structure Attributes where
  externalName : Option String := none
  previousNames : List String := []
  defaultValue : Option Value := none
  tupleNames : List (Option String) := []
  extra : List (String × Value) := []

namespace Attributes

def hasDefault (attributes : Attributes) : Bool :=
  attributes.defaultValue.isSome

private def equalDefaults : Option Value → Option Value → Bool
  | none, none => true
  | some left, some right => left.equals right
  | _, _ => false

/-- The same keys with the same values, in any order; no key occurs twice. -/
private def equalExtras (left right : List (String × Value)) : Bool :=
  left.length == right.length &&
    left.all fun (key, value) => right.any fun (other, found) => key == other && value.equals found

def equals (left right : Attributes) : Bool :=
  left.externalName == right.externalName && left.previousNames == right.previousNames &&
    equalDefaults left.defaultValue right.defaultValue && left.tupleNames == right.tupleNames &&
    equalExtras left.extra right.extra

def isEmpty (attributes : Attributes) : Bool :=
  attributes.equals {}

/-- Attributes under construction, and the known keys that have been met. -/
private structure Draft where
  attributes : Attributes := {}
  met : List String := []

private def Draft.meet (draft : Draft) (key : String) : Reader Draft := do
  if draft.met.contains key then Reader.duplicateField key
  else
    Reader.colon
    return { draft with met := key :: draft.met }

/-- Every key that is not known goes to the extra ones. -/
private def Draft.member (levels : Nat) (draft : Draft) (key : String) : Reader Draft := do
  match key with
  | "externalName" =>
    let draft ← draft.meet key
    let name ← Reader.optional Reader.text
    return { draft with attributes := { draft.attributes with externalName := name } }
  | "previousNames" =>
    let draft ← draft.meet key
    let names ← Reader.listOf levels Reader.text
    return { draft with attributes := { draft.attributes with previousNames := names } }
  | "defaultValue" =>
    let draft ← draft.meet key
    let value ← Reader.optional (Reader.value levels)
    return { draft with attributes := { draft.attributes with defaultValue := value } }
  | "tupleNames" =>
    let draft ← draft.meet key
    let names ← Reader.listOf levels (Reader.optional Reader.text)
    return { draft with attributes := { draft.attributes with tupleNames := names } }
  | _ =>
    Reader.colon
    let value ← Reader.value levels
    let extra := Value.insertLast key value draft.attributes.extra
    return { draft with attributes := { draft.attributes with extra := extra } }

/-- Reads an object; `null` as a default value is no default. -/
def reader : Reader Attributes := do
  match ← Reader.token? with
  | none => Reader.failAhead .endOfValue
  | some '\x7b' =>
    Reader.nested Json.nestingLimit fun levels =>
      return (← Reader.objectBody (Draft.member levels) {}).attributes
  | some _ => Reader.refuse "struct RawAttributes"

def ofString (text : String) : Except Json.Error Attributes :=
  reader.run text

end Attributes
end Interchange
