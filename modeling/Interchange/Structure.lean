import Interchange.Kind

/-! A type written out in full. Named types are leaves, known by their names. -/

namespace Interchange

inductive Structure where
  | any
  | basic (basic : BasicType)
  | named (name : String)
  | tuple (elements : List (Structure × Option String))
  | array (item : Structure)
  | list (item : Structure) (form : CollectionForm)
  | set (item : Structure) (form : CollectionForm)
  | dictionary (key value : Structure) (form : CollectionForm)
  | union (members : List Structure)
  | nullable (inner : Structure)

namespace Structure

def listName : CollectionForm → String
  | .concrete => "List"
  | .abstract => "IList"
  | .readOnly => "IReadOnlyList"

def setName : CollectionForm → String
  | .concrete => "HashSet"
  | .abstract => "ISet"
  | .readOnly => "IReadOnlySet"

def dictionaryName : CollectionForm → String
  | .concrete => "Dictionary"
  | .abstract => "IDictionary"
  | .readOnly => "IReadOnlyDictionary"

mutual

def text : Structure → String
  | .any => "object"
  | .basic type => type.name
  | .named name => name
  | .tuple elements => "(" ++ elementsText elements ++ ")"
  | .array item => item.text ++ "[]"
  | .list item form => listName form ++ "<" ++ item.text ++ ">"
  | .set item form => setName form ++ "<" ++ item.text ++ ">"
  | .dictionary key value form => dictionaryName form ++ "<" ++ key.text ++ "," ++ value.text ++ ">"
  | .union members => "Union<" ++ membersText members ++ ">"
  | .nullable inner => inner.text ++ "?"

/-- A label follows its element after a space. -/
def elementText : Structure × Option String → String
  | (element, none) => element.text
  | (element, some label) => element.text ++ " " ++ label

def elementsText : List (Structure × Option String) → String
  | [] => ""
  | [element] => elementText element
  | element :: rest => elementText element ++ "," ++ elementsText rest

def membersText : List Structure → String
  | [] => ""
  | [member] => member.text
  | member :: rest => member.text ++ "|" ++ membersText rest

end

end Structure
end Interchange
