import Interchange.Naming.Strategy

/-! Naming strategies written as patterns. A pattern is a text with placeholders in
braces; a placeholder that means nothing makes the rule give no name. -/

namespace Interchange

namespace NamePattern

inductive Piece where
  | char (char : Char)
  | placeholder (word : String)
deriving DecidableEq, Repr

/-- The pieces of a pattern. The letters of an open placeholder are collected
backwards; one that is never closed makes the pattern invalid. -/
def pieces? : Option (List Char) → List Char → Option (List Piece)
  | none, [] => some []
  | some _, [] => none
  | none, char :: rest =>
    if char = '\x7b' then pieces? (some []) rest
    else (pieces? none rest).map (.char char :: ·)
  | some word, char :: rest =>
    if char = '\x7d' then (pieces? none rest).map (.placeholder (String.ofList word.reverse) :: ·)
    else pieces? (some (char :: word)) rest

/-- All arguments, each with its id, its name and its label. -/
def allText (arguments : List NamedPart) : String :=
  String.join (arguments.map fun argument =>
    "<" ++ toString argument.ty.raw ++ ":" ++ argument.name ++ ":" ++ argument.label.getD "-" ++ ">")

def meaning? (context : NameContext) (arguments : List NamedPart) (word : String) : Option String :=
  match word with
  | "q" => some context.qualifiedName
  | "s" => some context.simpleName
  | "e" => some (context.externalName?.getD "-")
  | "d" => some context.declaredName
  | "k" => (context.system.shape? context.ty).map fun shape => shape.kind.name
  | "ty" => some (toString context.ty.raw)
  | "suffix" => some context.config.nullableSuffix
  | "bytes" => some context.config.byteArrayName
  | "*" => some (allText arguments)
  | _ =>
    if !word.isEmpty && word.toList.all Char.isDigit then
      (word.toNat?.bind fun index => arguments[index]?).map NamedPart.name
    else none

/-- Puts meanings in the place of placeholders. What they contain is not looked at again. -/
def expand? (pattern : String) (context : NameContext) (arguments : List NamedPart) : Option String := do
  let texts ← (← pieces? none pattern.toList).mapM fun
    | .char char => some char.toString
    | .placeholder word => meaning? context arguments word
  return String.join texts

end NamePattern

namespace Naming

/-- The usual rules, but for those that patterns are given for. A rule that is given without a
pattern supports nothing. The rule `named` serves all named kinds that have none of their own. -/
def ofPatterns (rule? : String → Option (Option String)) : Naming :=
  let apply (pattern : Option String) (context : NameContext) (arguments : List NamedPart) : Option String :=
    pattern.bind fun text => NamePattern.expand? text context arguments
  let plain (key : String) (usual : NameContext → Option String) : NameContext → Option String :=
    match rule? key with
    | some pattern => fun context => apply pattern context []
    | none => usual
  let one (key : String) (usual : NameContext → NamedPart → Option String) : NameContext → NamedPart → Option String :=
    match rule? key with
    | some pattern => fun context part => apply pattern context [part]
    | none => usual
  let many (key : String) (usual : NameContext → List NamedPart → Option String) :
      NameContext → List NamedPart → Option String :=
    match rule? key with
    | some pattern => apply pattern
    | none => usual
  let text (key : String) (usual : NameContext → String → Option String) : NameContext → String → Option String :=
    match rule? key with
    | some pattern => fun context name => apply pattern context [⟨context.ty, name, none⟩]
    | none => usual
  let usual := withNamed (plain "named" standard.record)
  { any := plain "any" usual.any
    basic := fun context basic => text "basic" (fun context _ => usual.basic context basic) context basic.name
    enumeration := plain "enumeration" usual.enumeration
    record := plain "record" usual.record
    primary := plain "primary_interface" usual.primary
    secondary := text "secondary_interface" usual.secondary
    abstraction := plain "abstract_interface" usual.abstraction
    tuple := many "tuple" usual.tuple
    array := one "array" usual.array
    list := one "list" usual.list
    set := one "set" usual.set
    dictionary := match rule? "dictionary" with
      | some pattern => fun context key value => apply pattern context [key, value]
      | none => usual.dictionary
    union := many "union" usual.union
    nullable := text "nullable" usual.nullable }

end Naming
end Interchange
