/-! JSON values. An object holds its members sorted by key, each key once. -/

namespace Interchange.Json

/-- A number written with a fraction or an exponent is a double, and so is an
integer that 64 bits cannot hold. -/
inductive Number where
  | integer (value : Int)
  | double (value : Float)

/-- A double is never equal to an integer. -/
def Number.equals : Number → Number → Bool
  | integer left, integer right => left == right
  | double left, double right => left == right
  | _, _ => false

inductive Value where
  | null
  | bool (value : Bool)
  | number (value : Number)
  | string (value : String)
  | array (items : List Value)
  | object (members : List (String × Value))

namespace Value

/-- Puts a member at its place; a later member replaces an earlier one of the same key. -/
def insertSorted (key : String) (value : Value) : List (String × Value) → List (String × Value)
  | [] => [(key, value)]
  | (other, kept) :: rest =>
    if key = other then (key, value) :: rest
    else if key < other then (key, value) :: (other, kept) :: rest
    else (other, kept) :: insertSorted key value rest

/-- Members in order of arrival; a repeated key keeps its place and takes the later value. -/
def insertLast (key : String) (value : Value) : List (String × Value) → List (String × Value)
  | [] => [(key, value)]
  | (other, kept) :: rest =>
    if key = other then (key, value) :: rest
    else (other, kept) :: insertLast key value rest

/-- The member of an object with a given key. -/
def member? (value : Value) (key : String) : Option Value :=
  match value with
  | .object members => (members.find? fun (name, _) => name == key).map Prod.snd
  | _ => none

def asString? : Value → Option String
  | .string text => some text
  | _ => none

def asNat? : Value → Option Nat
  | .number (.integer value) => if value ≥ 0 then some value.toNat else none
  | _ => none

def asBool? : Value → Option Bool
  | .bool value => some value
  | _ => none

/-- The items of a list; nothing else has any. -/
def items : Value → List Value
  | .array items => items
  | _ => []

def ofMembers (members : List (String × Value)) : Value :=
  .object (members.foldl (fun sorted (key, value) => insertSorted key value sorted) [])

mutual

def equals : Value → Value → Bool
  | .null, .null => true
  | .bool left, .bool right => left == right
  | .number left, .number right => left.equals right
  | .string left, .string right => left == right
  | .array left, .array right => equalItems left right
  | .object left, .object right => equalMembers left right
  | _, _ => false

def equalItems : List Value → List Value → Bool
  | [], [] => true
  | left :: lefts, right :: rights => left.equals right && equalItems lefts rights
  | _, _ => false

def equalMembers : List (String × Value) → List (String × Value) → Bool
  | [], [] => true
  | (leftKey, left) :: lefts, (rightKey, right) :: rights =>
    leftKey == rightKey && left.equals right && equalMembers lefts rights
  | _, _ => false

end

end Value
end Interchange.Json
