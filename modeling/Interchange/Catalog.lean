import Interchange.Shape
import Interchange.Structure

/-! The table of registered types. A pair's position in the table is its index;
a shape without a name is entered once, so its id stands for its content. -/

namespace Interchange

/-- Normal forms of a pair, as far as they have been computed. A type may have
no regular form. -/
structure Forms where
  oblivious : Option TypeId := none
  regular : Option (Option TypeId) := none
deriving DecidableEq, Repr

structure Entry where
  shape : Shape
  externalName : Option Symbol := none
  previousNames : List Symbol := []
  forms : Forms := {}
  policy : Option DefaultPolicy := none
deriving DecidableEq, Repr

/-- The keys of entries with the ids of their pairs, in the order of registration. -/
def Entry.index {α : Type} (key : Shape → Option α) (entries : List Entry) : List (α × TypeId) :=
  (entries.map fun entry => key entry.shape).zipIdx.filterMap fun keyed => keyed.1.map (·, TypeId.ofPair keyed.2)

/-- The table is searched by two indexes, which list what it holds. -/
structure Catalog where
  strings : Interner
  entries : Array Entry
  /-- The shapes without a name. -/
  shapes : List (Shape × TypeId)
  /-- The declared names. -/
  names : List (Symbol × TypeId)
  shapes_eq : shapes = Entry.index Shape.content? entries.toList
  names_eq : names = Entry.index Shape.name? entries.toList
deriving DecidableEq, Repr

namespace Entry

theorem index_append {α : Type} (key : Shape → Option α) (entries : List Entry) (entry : Entry) :
    index key (entries ++ [entry]) = index key entries ++ ((key entry.shape).map (·, TypeId.ofPair entries.length)).toList := by
  cases given : key entry.shape <;> simp [index, List.zipIdx_append, given]

theorem index_of_keys {α : Type} {key : Shape → Option α} {before after : List Entry}
    (same : after.map (fun entry => key entry.shape) = before.map fun entry => key entry.shape) :
    index key after = index key before := by
  rw [index, index, same]

end Entry

namespace Catalog

/-- The table that holds the given entries. -/
def ofEntries (strings : Interner) (entries : Array Entry) : Catalog where
  strings
  entries
  shapes := Entry.index Shape.content? entries.toList
  names := Entry.index Shape.name? entries.toList
  shapes_eq := rfl
  names_eq := rfl

/-- The universal type and the basic types come first. -/
def standard : Catalog :=
  ofEntries .empty ((Shape.any :: BasicType.all.map Shape.basic).map fun shape => { shape }).toArray

def size (catalog : Catalog) : Nat :=
  catalog.entries.size

def contains (catalog : Catalog) (ty : TypeId) : Bool :=
  ty.pair < catalog.size

/-- Non-nullable ids in the order of registration. -/
def types (catalog : Catalog) : List TypeId :=
  (List.range catalog.size).map TypeId.ofPair

/-- The entry that both ids of a pair share; nothing if the id is not registered. -/
def entry? (catalog : Catalog) (ty : TypeId) : Option Entry :=
  catalog.entries[ty.pair]?

def shape? (catalog : Catalog) (ty : TypeId) : Option Shape :=
  (catalog.entry? ty).map Entry.shape

/-- Appends an entry and lists it in the index it belongs to. -/
def push (catalog : Catalog) (entry : Entry) : TypeId × Catalog :=
  let ty := TypeId.ofPair catalog.size
  (ty, { catalog with
    entries := catalog.entries.push entry
    shapes := catalog.shapes ++ (entry.shape.content?.map (·, ty)).toList
    names := catalog.names ++ (entry.shape.name?.map (·, ty)).toList
    shapes_eq := by rw [catalog.shapes_eq, Array.toList_push, Entry.index_append]; rfl
    names_eq := by rw [catalog.names_eq, Array.toList_push, Entry.index_append]; rfl })

theorem keys_modify {α : Type} (key : Shape → Option α) (entries : Array Entry) (pair : Nat) {change : Entry → Entry}
    (keeps : ∀ entry, key (change entry).shape = key entry.shape) :
    (entries.modify pair change).toList.map (fun entry => key entry.shape) = entries.toList.map fun entry => key entry.shape := by
  apply List.ext_getElem?
  intro position
  simp only [List.getElem?_map, Array.getElem?_toList, Array.getElem?_modify]
  split
  · cases entries[position]? <;> simp [keeps]
  · rfl

/-- Changes an entry in place. It stays what it is known by, so the indexes stay as they are. -/
def modifyEntry (catalog : Catalog) (ty : TypeId) (change : Entry → Entry)
    (keeps : ∀ entry, (change entry).shape.identity = entry.shape.identity := by simp) : Catalog :=
  { catalog with
    entries := catalog.entries.modify ty.pair change
    shapes_eq := catalog.shapes_eq.trans
      (Entry.index_of_keys (keys_modify _ _ _ fun entry => Shape.content?_of_identity (keeps entry))).symm
    names_eq := catalog.names_eq.trans
      (Entry.index_of_keys (keys_modify _ _ _ fun entry => Shape.name?_of_identity (keeps entry))).symm }

def modifyShape (catalog : Catalog) (ty : TypeId) (change : Shape → Shape)
    (keeps : ∀ shape, (change shape).identity = shape.identity := by simp) : Catalog :=
  catalog.modifyEntry ty (fun entry => { entry with shape := change entry.shape }) fun entry => keeps entry.shape

/-- The id of a shape without a name, which is entered at its first use. -/
def intern (catalog : Catalog) (shape : Shape) : TypeId × Catalog :=
  match catalog.shapes.lookup shape with
  | some ty => (ty, catalog)
  | none => catalog.push { shape }

/-- The type with a declared name. -/
def named? (catalog : Catalog) (name : Symbol) : Option TypeId :=
  catalog.names.lookup name

def find? (catalog : Catalog) (name : String) : Option TypeId :=
  (catalog.strings.find? name).bind catalog.named?

/-- Labels are interned from left to right. -/
def label (catalog : Catalog) : List (TypeId × Option String) → List TupleElement × Catalog
  | [] => ([], catalog)
  | (ty, text) :: rest =>
    let (symbol, strings) := catalog.strings.internOption text
    let (elements, catalog) := label { catalog with strings } rest
    (⟨ty, symbol⟩ :: elements, catalog)

/-- Writes one level of a type out; `inner` writes out what it is made of. -/
def unfoldShape (catalog : Catalog) (inner : TypeId → Option Structure) : Shape → Option Structure
  | .any => some .any
  | .basic basic => some (.basic basic)
  | .enumeration name _ | .record name _ _ | .primary name _ _ _ | .secondary name _ | .abstraction name _ _ =>
    (catalog.strings.get? name).map Structure.named
  | .tuple elements => do
    let unfolded ← elements.mapM fun element => do
      let item ← inner element.ty
      let label ← element.label.mapM catalog.strings.get?
      pure (item, label)
    pure (.tuple unfolded)
  | .array item => (inner item).map Structure.array
  | .list item form => (inner item).map (Structure.list · form)
  | .set item form => (inner item).map (Structure.set · form)
  | .dictionary key value form => do
    let key ← inner key
    let value ← inner value
    pure (.dictionary key value form)
  | .union members => (members.mapM inner).map Structure.union

/-- Writes a type out, as long as it is not nested deeper than the given number of levels. -/
def unfoldWithin (catalog : Catalog) : Nat → TypeId → Option Structure
  | 0, _ => none
  | depth + 1, ty => do
    let shape ← catalog.shape? ty
    let bare ← catalog.unfoldShape (catalog.unfoldWithin depth) shape
    pure (if ty.nullable then .nullable bare else bare)

/-- A type written out in full. Parts are entered before what is built from them,
so no type is nested deeper than the table is long. -/
def unfolded? (catalog : Catalog) (ty : TypeId) : Option Structure :=
  catalog.unfoldWithin (catalog.size + 1) ty

/-- How messages show a type; nothing if the type or a part of it is not registered. -/
def display? (catalog : Catalog) (ty : TypeId) : Option String :=
  (catalog.unfolded? ty).map Structure.text

end Catalog
end Interchange
