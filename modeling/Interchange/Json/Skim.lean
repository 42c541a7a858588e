import Interchange.Json.Reader

/-! Passing over a value that nobody asks for. Only its syntax is checked: it may
be nested to any depth, and its numbers and strings are not evaluated. -/

namespace Interchange.Json

inductive Bracket where
  | list
  | object
deriving DecidableEq, Repr

namespace Bracket

def closing : Bracket → Char
  | list => ']'
  | object => '\x7d'

def unclosed : Bracket → Cause
  | list => .endOfList
  | object => .endOfObject

def unfinished : Bracket → Cause
  | list => .expectedListEnd
  | object => .expectedObjectEnd

end Bracket

namespace Reader

private def skimDigits : Reader Bool := do
  return !(← digits).isEmpty

private def skimExponent : Reader Unit := do
  match ← peek? with
  | some '+' | some '-' => advance
  | _ => pure ()
  match ← next? with
  | some char => if char.isDigit then discard skimDigits else failHere .invalidNumber
  | none => failHere .invalidNumber

/-- A number whose sign has been passed. -/
def skimNumber : Reader Unit := do
  match ← next? with
  | none => failHere .invalidNumber
  | some '0' =>
    match (← peek?).bind digit? with
    | some _ => failAhead .invalidNumber
    | none => pure ()
  | some char => if char.isDigit then discard skimDigits else failHere .invalidNumber
  match ← peek? with
  | some '.' => do
    advance
    if ← skimDigits then
      match ← peek? with
      | some 'e' | some 'E' => do
        advance
        skimExponent
      | _ => pure ()
    else failAhead .invalidNumber
  | some 'e' | some 'E' => do
    advance
    skimExponent
  | _ => pure ()

/-- A scalar, or the bracket that opens a list or an object. -/
private def skimToken : Reader (Option Bracket) := do
  match ← token? with
  | none => failAhead .endOfValue
  | some 'n' => do
    advance
    letters ['u', 'l', 'l']
    return none
  | some 't' => do
    advance
    letters ['r', 'u', 'e']
    return none
  | some 'f' => do
    advance
    letters ['a', 'l', 's', 'e']
    return none
  | some '-' => do
    advance
    skimNumber
    return none
  | some '"' => do
    advance
    skimString ((← get).left + 1)
    return none
  | some '[' => do
    advance
    return some .list
  | some '\x7b' => do
    advance
    return some .object
  | some char =>
    if char.isDigit then do
      skimNumber
      return none
    else failAhead .expectedValue

/-- Closes the brackets that end here. What is left open waits for another value;
nothing is left once the whole value has been passed. -/
private def unwind (afterValue : Bool) : List Bracket → Reader (List Bracket)
  | [] => return []
  | bracket :: outer => do
    match ← token? with
    | none => failAhead bracket.unclosed
    | some char =>
      if char == ',' && afterValue then do
        advance
        return bracket :: outer
      else if char == bracket.closing then do
        advance
        unwind true outer
      else if afterValue then failAhead bracket.unfinished
      else return bracket :: outer

private def skimKey : Reader Unit := do
  match ← token? with
  | none => failAhead .endOfObject
  | some '"' => do
    advance
    skimString ((← get).left + 1)
    colon
  | some _ => failAhead .keyNotString

private def skimFrom : Nat → List Bracket → Reader Unit
  | 0, _ => pure ()
  | fuel + 1, enclosing => do
    let opened ← skimToken
    let brackets ← match opened with
      | some bracket => unwind false (bracket :: enclosing)
      | none => unwind true enclosing
    match brackets with
    | [] => return ()
    | bracket :: _ => do
      if bracket == .object then skimKey
      skimFrom fuel brackets

/-- Passes over a value of any kind. -/
def skim : Reader Unit := do
  skimFrom ((← get).left + 1) []

end Reader
end Interchange.Json
