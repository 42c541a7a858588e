import Interchange.TypeId

/-! The kinds of types and the basic types every table starts with. -/

namespace Interchange

inductive Kind where
  | any
  | basic
  | enumeration
  | record
  | tuple
  | primary
  | secondary
  | abstraction
  | array
  | list
  | set
  | dictionary
  | union
deriving DecidableEq, Repr

namespace Kind

def all : List Kind :=
  [any, basic, enumeration, record, tuple, primary, secondary, abstraction, array, list, set, dictionary, union]

/-- The word for the kind in messages. -/
def name : Kind → String
  | any => "Any"
  | basic => "Basic"
  | enumeration => "Enum"
  | record => "NamedRecord"
  | tuple => "AnonymousRecord"
  | primary => "PrimaryInterface"
  | secondary => "SecondaryInterface"
  | abstraction => "AbstractInterface"
  | array => "Array"
  | list => "List"
  | set => "Set"
  | dictionary => "Dictionary"
  | union => "Union"

def ofName? (name : String) : Option Kind :=
  all.find? fun kind => kind.name == name

def code (kind : Kind) : Nat :=
  all.idxOf kind

def isCollection : Kind → Bool
  | array | list | set | dictionary => true
  | _ => false

/-- Composite kinds own named fields. -/
def isComposite : Kind → Bool
  | record | primary => true
  | _ => false

/-- Values of a polymorphic kind carry a type of their own. -/
def isPolymorphic : Kind → Bool
  | any | abstraction | union => true
  | _ => false

def isNamed : Kind → Bool
  | enumeration | record | primary | secondary | abstraction => true
  | _ => false

end Kind

inductive BasicType where
  | bool
  | byte
  | sbyte
  | short
  | ushort
  | int
  | uint
  | long
  | ulong
  | float
  | double
  | decimal
  | char
  | string
  | guid
  | dateTime
  | dateTimeOffset
  | timeSpan
deriving DecidableEq, Repr

namespace BasicType

/-- Basic types in the order of their pairs. -/
def all : List BasicType :=
  [bool, byte, sbyte, short, ushort, int, uint, long, ulong, float, double, decimal, char, string, guid,
   dateTime, dateTimeOffset, timeSpan]

def name : BasicType → String
  | bool => "bool"
  | byte => "byte"
  | sbyte => "sbyte"
  | short => "short"
  | ushort => "ushort"
  | int => "int"
  | uint => "uint"
  | long => "long"
  | ulong => "ulong"
  | float => "float"
  | double => "double"
  | decimal => "decimal"
  | char => "char"
  | string => "string"
  | guid => "guid"
  | dateTime => "datetime"
  | dateTimeOffset => "datetimeoffset"
  | timeSpan => "timespan"

def ofName? (name : String) : Option BasicType :=
  all.find? fun basic => basic.name == name

/-- The pair after the universal type's belongs to the first basic type. -/
def id (basic : BasicType) : TypeId :=
  .ofPair (all.idxOf basic + 1)

def isValue (basic : BasicType) : Bool :=
  basic != string

def isIntegral : BasicType → Bool
  | byte | sbyte | short | ushort | int | uint | long | ulong => true
  | _ => false

end BasicType

/-- Whether a collection is a class of its own, an interface, or a read-only view. -/
inductive CollectionForm where
  | concrete
  | abstract
  | readOnly
deriving DecidableEq, Repr

def CollectionForm.name : CollectionForm → String
  | concrete => "Concrete"
  | abstract => "Abstract"
  | readOnly => "ReadOnly"

/-- What a missing value of a type may be replaced by. -/
inductive DefaultPolicy where
  | disallowed
  | allowed
  | requiresInit
deriving DecidableEq, Repr

def DefaultPolicy.name : DefaultPolicy → String
  | disallowed => "Disallowed"
  | allowed => "Allowed"
  | requiresInit => "RequiresInit"

end Interchange
