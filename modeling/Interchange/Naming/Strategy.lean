import Interchange.Config
import Interchange.System
import Interchange.Text.Qualified

/-! Naming strategies: a rule for each kind of type. A rule that gives no name does
not support the type. -/

namespace Interchange

/-- The non-nullable type that gets a name, and what a rule may consult. -/
structure NameContext where
  system : System
  config : Config
  ty : TypeId

namespace NameContext

/-- The declared name; empty if the type has none. -/
def qualifiedName (context : NameContext) : String :=
  (context.system.qualifiedName? context.ty).getD ""

def externalName? (context : NameContext) : Option String :=
  context.system.externalName? context.ty

/-- The external name takes the place of the declared one. -/
def declaredName (context : NameContext) : String :=
  context.externalName?.getD context.qualifiedName

def simpleName (context : NameContext) : String :=
  (QualifiedName.ofString context.qualifiedName).simple

end NameContext

/-- A component that has got its name. Elements of tuples may have a label. -/
structure NamedPart where
  ty : TypeId
  name : String
  label : Option String
deriving DecidableEq, Repr

structure Naming where
  any : NameContext → Option String
  basic : NameContext → BasicType → Option String
  enumeration : NameContext → Option String
  record : NameContext → Option String
  primary : NameContext → Option String
  /-- The rule is given the name of the primary interface. -/
  secondary : NameContext → String → Option String
  abstraction : NameContext → Option String
  tuple : NameContext → List NamedPart → Option String
  array : NameContext → NamedPart → Option String
  list : NameContext → NamedPart → Option String
  set : NameContext → NamedPart → Option String
  dictionary : NameContext → NamedPart → NamedPart → Option String
  /-- The rule is given the members that are eligible. -/
  union : NameContext → List NamedPart → Option String
  /-- The nullable name that belongs to a non-nullable one. -/
  nullable : NameContext → String → Option String

namespace Naming

/-- The label of an element follows its name. -/
def element (part : NamedPart) : String :=
  match part.label with
  | some label => part.name ++ ":" ++ label
  | none => part.name

/-- The usual rules, with one rule for the named kinds other than secondary interfaces. -/
def withNamed (named : NameContext → Option String) : Naming where
  any _ := some "object"
  basic _ basic := some basic.name
  enumeration := named
  record := named
  primary := named
  secondary _ primary := some primary
  abstraction := named
  tuple _ elements := some ("(" ++ ",".intercalate (elements.map element) ++ ")")
  array context item :=
    if item.ty = BasicType.byte.id then some context.config.byteArrayName else some ("A(" ++ item.name ++ ")")
  list _ item := some ("L(" ++ item.name ++ ")")
  set _ item := some ("S(" ++ item.name ++ ")")
  dictionary _ key value :=
    if key.ty.nonNull = BasicType.string.id then some ("O(" ++ value.name ++ ")")
    else some ("M(" ++ key.name ++ "," ++ value.name ++ ")")
  union _ members := some ("|".intercalate (members.map NamedPart.name))
  nullable context name := some (name ++ context.config.nullableSuffix)

/-- Named types go by their declared names. -/
def standard : Naming :=
  withNamed fun context => some context.declaredName

/-- The rule for a shape, applied to its parts. -/
def nameShape (naming : Naming) (context : NameContext) (shape : Shape) (parts : List NamedPart) : Option String :=
  match shape, parts with
  | .any, _ => naming.any context
  | .basic basic, _ => naming.basic context basic
  | .enumeration .., _ => naming.enumeration context
  | .record .., _ => naming.record context
  | .primary .., _ => naming.primary context
  | .secondary .., [primary] => naming.secondary context primary.name
  | .abstraction .., _ => naming.abstraction context
  | .tuple _, elements => naming.tuple context elements
  | .array _, [item] => naming.array context item
  | .list .., [item] => naming.list context item
  | .set .., [item] => naming.set context item
  | .dictionary .., [key, value] => naming.dictionary context key value
  | .union _, members => naming.union context members
  | _, _ => none

end Naming
end Interchange
