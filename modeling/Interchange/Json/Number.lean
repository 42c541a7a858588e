import Interchange.Json.Cursor

/-! Numbers in JSON texts. Digits are collected in a 64-bit significand; digits
that no longer fit only move the decimal point. -/

namespace Interchange.Json

def digit? (char : Char) : Option Nat :=
  if char.isDigit then some (char.toNat - '0'.toNat) else none

/-- The significand and the number of digits that went into it. The first digit
that does not fit ends the count. -/
def absorb (significand : Nat) : List Char → Nat × Nat
  | [] => (significand, 0)
  | char :: rest =>
    let longer := significand * 10 + (digit? char).getD 0
    if longer < Nat.pow 2 64 then
      let (result, taken) := absorb longer rest
      (result, taken + 1)
    else (significand, 0)

/-- The greatest exponent that is counted. -/
def exponentLimit : Nat :=
  Nat.pow 2 31 - 1

/-- Scales by a power of ten in one multiplication or division where a double can
hold that power, and in several divisions below; nothing if the result is infinite. -/
def scale (value : Float) (exponent : Int) : Option Float :=
  if exponent.natAbs ≤ 308 then
    let power := Float.ofScientific 1 false exponent.natAbs
    if exponent ≥ 0 then
      let scaled := value * power
      if scaled.isInf then none else some scaled
    else some (value / power)
  else if value == 0 then some value
  else if exponent ≥ 0 then none
  else scale (value / 1e308) (exponent + 308)
termination_by exponent.natAbs

namespace Reader

def digits : Reader (List Char) := do
  let found := (← get).takeWhile Char.isDigit
  modify fun cursor => cursor.skipWhile Char.isDigit
  return found

def double (negative : Bool) (significand : Nat) (exponent : Int) : Reader Number := do
  match scale (Float.ofNat significand) exponent with
  | none => failHere .numberOutOfRange
  | some value => return .double (if negative then -value else value)

/-- The exponent that the digits ahead continue; nothing once it passes the limit. -/
def exponentDigits : Nat → Nat → Reader (Option Nat)
  | 0, value => return some value
  | fuel + 1, value => do
    match (← peek?).bind digit? with
    | none => return some value
    | some digit => do
      advance
      let longer := value * 10 + digit
      if longer ≤ exponentLimit then exponentDigits fuel longer else return none

/-- What follows the mark of an exponent. -/
def exponentPart (negative : Bool) (significand : Nat) (shift : Int) : Reader Number := do
  let downwards ← do
    match ← peek? with
    | some '+' => advance; pure false
    | some '-' => advance; pure true
    | _ => pure false
  match ← next? with
  | none => failHere .endOfValue
  | some char =>
    match digit? char with
    | none => failHere .invalidNumber
    | some digit =>
      match ← exponentDigits (← get).left digit with
      | some exponent =>
        let signed : Int := if downwards then -exponent else exponent
        double negative significand (shift + signed)
      | none =>
        if significand ≠ 0 ∧ !downwards then failHere .numberOutOfRange
        else do
          let _ ← digits
          double negative 0 0

/-- What follows a decimal point. -/
def fractionPart (negative : Bool) (significand : Nat) (shift : Int) : Reader Number := do
  let found ← digits
  if found.isEmpty then
    match ← peek? with
    | some _ => failAhead .invalidNumber
    | none => failAhead .endOfValue
  else
    let (significand, taken) := absorb significand found
    match ← peek? with
    | some 'e' | some 'E' => do
      advance
      exponentPart negative significand (shift - taken)
    | _ => double negative significand (shift - taken)

/-- What follows the digits before the point; `dropped` of them did not fit. -/
def afterInteger (negative : Bool) (significand dropped : Nat) : Reader Number := do
  match ← peek? with
  | some '.' => do
    advance
    fractionPart negative significand dropped
  | some 'e' | some 'E' => do
    advance
    exponentPart negative significand dropped
  | _ =>
    if dropped > 0 then double negative significand dropped
    else if !negative then return .integer significand
    else if significand = 0 ∨ significand > Nat.pow 2 63 then double true significand 0
    else return .integer (-significand)

/-- A number whose sign has been read. -/
def number (negative : Bool) : Reader Number := do
  match ← next? with
  | none => failHere .endOfValue
  | some '0' =>
    match (← peek?).bind digit? with
    | some _ => failAhead .invalidNumber
    | none => afterInteger negative 0 0
  | some char =>
    if char.isDigit then do
      let found := char :: (← digits)
      let (significand, taken) := absorb 0 found
      afterInteger negative significand (found.length - taken)
    else failHere .invalidNumber

end Reader
end Interchange.Json
