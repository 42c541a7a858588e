import Interchange.Json.Number
import Interchange.Json.Text

/-! Reading JSON texts from left to right. The first fault met ends the reading. -/

namespace Interchange.Json

/-- How deep lists and objects may be nested. -/
def nestingLimit : Nat :=
  127

namespace Reader

/-- A list or an object opens, unless the levels are used up. -/
def nested {α : Type} (levels : Nat) (inner : Nat → Reader α) : Reader α :=
  match levels with
  | 0 => failAhead .nestedTooDeep
  | levels + 1 => do
    advance
    inner levels

/-- Whether another item of a list follows; the comma before it is passed. -/
def moreItems (first : Bool) : Reader Bool := do
  match ← token? with
  | none => failAhead .endOfList
  | some char =>
    if char == ']' then return false
    else if first then return true
    else if char == ',' then do
      advance
      match ← token? with
      | none => failAhead .endOfValue
      | some char => if char == ']' then failAhead .trailingComma else return true
    else failAhead .expectedListEnd

def closeList : Reader Unit := do
  match ← token? with
  | none => failAhead .endOfList
  | some ']' => advance
  | some ',' => do
    advance
    match ← token? with
    | some ']' => failAhead .trailingComma
    | _ => failAhead .trailingCharacters
  | some _ => failAhead .trailingCharacters

private def itemsFrom {α : Type} (item : Reader α) : Nat → Bool → Reader (List α)
  | 0, _ => return []
  | fuel + 1, first => do
    if ← moreItems first then
      let head ← item
      let tail ← itemsFrom item fuel false
      return head :: tail
    else return []

/-- The items of a list whose bracket has been read. -/
def listBody {α : Type} (item : Reader α) : Reader (List α) := do
  let items ← itemsFrom item ((← get).left + 1) true
  closeList
  return items

/-- Whether another member of an object follows; the comma before it is passed. -/
def moreMembers (first : Bool) : Reader Bool := do
  match ← token? with
  | none => failAhead .endOfObject
  | some char =>
    if char == '\x7d' then return false
    else if first then
      if char == '"' then return true else failAhead .keyNotString
    else if char == ',' then do
      advance
      match ← token? with
      | none => failAhead .endOfValue
      | some char =>
        if char == '"' then return true
        else if char == '\x7d' then failAhead .trailingComma
        else failAhead .keyNotString
    else failAhead .expectedObjectEnd

def closeObject : Reader Unit := do
  match ← token? with
  | none => failAhead .endOfObject
  | some '\x7d' => advance
  | some ',' => failAhead .trailingComma
  | some _ => failAhead .trailingCharacters

def colon : Reader Unit := do
  match ← token? with
  | none => failAhead .endOfObject
  | some ':' => advance
  | some _ => failAhead .expectedColon

private def membersFrom {σ : Type} (member : σ → String → Reader σ) : Nat → Bool → σ → Reader σ
  | 0, _, state => return state
  | fuel + 1, first, state => do
    if ← moreMembers first then
      advance
      let key ← stringBody
      let state ← member state key
      membersFrom member fuel false state
    else return state

/-- The members of an object whose brace has been read. A member is given its key and reads on from the colon. -/
def objectBody {σ : Type} (member : σ → String → Reader σ) (start : σ) : Reader σ := do
  let state ← membersFrom member ((← get).left + 1) true start
  closeObject
  return state

/-- A repeated key is reported once the reader has left the object, if the object ends there. -/
def duplicateField {α : Type} (name : String) : Reader α := do
  match ← token? with
  | some '\x7d' => advance
  | _ => pure ()
  failHere (.duplicateField name)

/-- A value; how lists and objects are read depends on the levels left. -/
private def valueWith (list object : Reader Value) : Reader Value := do
  match ← token? with
  | none => failAhead .endOfValue
  | some 'n' => do
    advance
    letters ['u', 'l', 'l']
    return .null
  | some 't' => do
    advance
    letters ['r', 'u', 'e']
    return .bool true
  | some 'f' => do
    advance
    letters ['a', 'l', 's', 'e']
    return .bool false
  | some '-' => do
    advance
    return .number (← number true)
  | some '"' => do
    advance
    return .string (← stringBody)
  | some '[' => list
  | some '\x7b' => object
  | some char =>
    if char.isDigit then return .number (← number false)
    else failAhead .expectedValue

/-- Any value, with the given number of levels left. -/
def value : Nat → Reader Value
  | 0 => valueWith (failAhead .nestedTooDeep) (failAhead .nestedTooDeep)
  | levels + 1 =>
    valueWith
      (do
        advance
        return .array (← listBody (value levels)))
      (do
        advance
        let member (members : List (String × Value)) (key : String) : Reader (List (String × Value)) := do
          colon
          return Value.insertSorted key (← value levels) members
        return .object (← objectBody member []))

/-- Refuses the value ahead, once it has been read, because another type is wanted.
A list or an object is refused before it opens. -/
def refuse {α : Type} (expected : String) : Reader α := do
  let found : Found ← do
    match ← peek? with
    | some 'n' => do
      advance
      letters ['u', 'l', 'l']
      pure .null
    | some 't' => do
      advance
      letters ['r', 'u', 'e']
      pure (.bool true)
    | some 'f' => do
      advance
      letters ['a', 'l', 's', 'e']
      pure (.bool false)
    | some '-' => do
      advance
      pure (.number (← number true))
    | some '"' => do
      advance
      pure (.string (← stringBody))
    | some '[' => pure .sequence
    | some '\x7b' => pure .map
    | some char =>
      if char.isDigit then pure (.number (← number false))
      else failAhead .expectedValue
    | none => failAhead .expectedValue
  failHere (.wrongType found expected)

/-- A string, which the message of a refusal calls by the given words. -/
def textAs (expected : String) : Reader String := do
  match ← token? with
  | none => failAhead .endOfValue
  | some '"' => do
    advance
    stringBody
  | some _ => refuse expected

def text : Reader String :=
  textAs "a string"

def flag : Reader Bool := do
  match ← token? with
  | none => failAhead .endOfValue
  | some 't' => do
    advance
    letters ['r', 'u', 'e']
    return true
  | some 'f' => do
    advance
    letters ['a', 'l', 's', 'e']
    return false
  | some _ => refuse "a boolean"

/-- Reads `null` as nothing. -/
def optional {α : Type} (reader : Reader α) : Reader (Option α) := do
  match ← token? with
  | some 'n' => do
    advance
    letters ['u', 'l', 'l']
    return none
  | _ => return some (← reader)

def listOf {α : Type} (levels : Nat) (item : Reader α) : Reader (List α) := do
  match ← token? with
  | none => failAhead .endOfValue
  | some '[' => nested levels fun _ => listBody item
  | some _ => refuse "a sequence"

end Reader

def Value.ofString (text : String) : Except Error Value :=
  (Reader.value nestingLimit).run text

end Interchange.Json
