import Interchange.Json.Reader

/-! The nullability that an accessor of a member declares. -/

namespace Interchange

open Json (Reader)

inductive Nullability where
  | notNull
  | nullable
deriving DecidableEq, Repr

namespace Nullability

def isNullable : Nullability → Bool
  | notNull => false
  | nullable => true

private def variant : Reader Nullability := do
  match ← Reader.textAs "variant identifier" with
  | "notnull" => return notNull
  | "nullable" => return nullable
  | other => Reader.failHere (.unknownVariant other "notnull" "nullable")

private def nothing : Reader Unit := do
  match ← Reader.token? with
  | none => Reader.failAhead .endOfValue
  | some 'n' =>
    Reader.advance
    Reader.letters ['u', 'l', 'l']
  | some _ => Reader.refuse "unit"

/-- A name alone, or an object that gives the name the value `null`. -/
def reader : Reader Nullability := do
  match ← Reader.token? with
  | none => Reader.failAhead .endOfValue
  | some '"' => variant
  | some '\x7b' =>
    Reader.nested Json.nestingLimit fun _ => do
      let found ← variant
      Reader.colon
      nothing
      match ← Reader.token? with
      | some '\x7d' =>
        Reader.advance
        return found
      | some _ => Reader.failHere .expectedValue
      | none => Reader.failHere .endOfObject
  | some _ => Reader.failAhead .expectedValue

def ofString (text : String) : Except Json.Error Nullability :=
  reader.run text

end Nullability
end Interchange
