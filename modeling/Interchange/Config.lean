import Interchange.Json.Skim

/-! Configuration of naming and eligibility. -/

namespace Interchange

open Json (Reader)

structure Config where
  nullableSuffix : String := "?"
  byteArrayName : String := "binary"
  enumFollowsUnderlying : Bool := true
  allowEmptyComposites : Bool := true
deriving DecidableEq, Repr

namespace Config

/-- A configuration under construction, and the known keys that have been met. -/
private structure Draft where
  config : Config := {}
  met : List String := []

private def Draft.meet (draft : Draft) (key : String) : Reader Draft := do
  if draft.met.contains key then Reader.duplicateField key
  else
    Reader.colon
    return { draft with met := key :: draft.met }

private def Draft.member (draft : Draft) (key : String) : Reader Draft := do
  match key with
  | "nullableSuffix" =>
    let draft ← draft.meet key
    let suffix ← Reader.text
    return { draft with config := { draft.config with nullableSuffix := suffix } }
  | "byteArrayName" =>
    let draft ← draft.meet key
    let name ← Reader.text
    return { draft with config := { draft.config with byteArrayName := name } }
  | "enumFollowsUnderlying" =>
    let draft ← draft.meet key
    let follows ← Reader.flag
    return { draft with config := { draft.config with enumFollowsUnderlying := follows } }
  | "allowEmptyComposites" =>
    let draft ← draft.meet key
    let allow ← Reader.flag
    return { draft with config := { draft.config with allowEmptyComposites := allow } }
  | _ =>
    Reader.colon
    Reader.skim
    return draft

/-- The next item of a list, or the default once the list has ended. -/
private def itemOr {α : Type} (first : Bool) (item : Reader α) (default : α) : Reader α := do
  if ← Reader.moreItems first then item else return default

/-- The settings in their order; those missing at the end keep their defaults. -/
private def items : Reader Config := do
  let default : Config := {}
  let nullableSuffix ← itemOr true Reader.text default.nullableSuffix
  let byteArrayName ← itemOr false Reader.text default.byteArrayName
  let enumFollowsUnderlying ← itemOr false Reader.flag default.enumFollowsUnderlying
  let allowEmptyComposites ← itemOr false Reader.flag default.allowEmptyComposites
  Reader.closeList
  return { nullableSuffix, byteArrayName, enumFollowsUnderlying, allowEmptyComposites }

/-- Reads an object, whose unknown keys are ignored, or a list. -/
def reader : Reader Config := do
  match ← Reader.token? with
  | none => Reader.failAhead .endOfValue
  | some '\x7b' =>
    Reader.nested Json.nestingLimit fun _ =>
      return (← Reader.objectBody Draft.member {}).config
  | some '[' => Reader.nested Json.nestingLimit fun _ => items
  | some _ => Reader.refuse "struct Config"

def ofString (text : String) : Except Json.Error Config :=
  reader.run text

end Config
end Interchange
