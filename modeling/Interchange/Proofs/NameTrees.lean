import Interchange.Structure
import Mathlib.Logic.Function.Iterate

/-! Names as trees. The name of a type without declared names is a word, or a letter that is applied to names, with a
mark for nulls. Its text can be read in one way only, and the tree tells the structure but for what names do not show. -/

namespace Interchange

inductive NameWord where
  | object
  | binary
  | basic (type : BasicType)
deriving DecidableEq

namespace NameWord

def spelled : NameWord → String
  | object => "object"
  | binary => "binary"
  | .basic type => type.name

def ofText? (text : String) : Option NameWord :=
  if text = "object" then some object
  else if text = "binary" then some binary
  else (BasicType.ofName? text).map basic

theorem ofText?_spelled (word : NameWord) : ofText? word.spelled = some word := by
  cases word with
  | object | binary => rfl
  | basic type => cases type <;> rfl

theorem spelled_letters (word : NameWord) : word.spelled.toList.all Char.isAlpha = true := by
  cases word with
  | object | binary => decide
  | basic type => cases type <;> decide

theorem spelled_starts (word : NameWord) : ∃ first rest, word.spelled.toList = first :: rest ∧ first.isAlpha = true := by
  have letters := word.spelled_letters
  cases text : word.spelled.toList with
  | nil =>
    cases word with
    | object | binary => cases text
    | basic type => cases type <;> cases text
  | cons first rest =>
    rw [text, List.all_cons, Bool.and_eq_true] at letters
    exact ⟨first, rest, rfl, letters.1⟩

end NameWord

inductive NameSymbol where
  | array
  | list
  | set
  | textMap
  | map
  | tuple
deriving DecidableEq

namespace NameSymbol

def letters : NameSymbol → List Char
  | array => ['A']
  | list => ['L']
  | set => ['S']
  | textMap => ['O']
  | map => ['M']
  | tuple => []

theorem letters_injective {first second : NameSymbol} (same : first.letters = second.letters) : first = second := by
  cases first <;> cases second <;> first | rfl | cases same

theorem letters_all (symbol : NameSymbol) : symbol.letters.all Char.isAlpha = true := by
  cases symbol <;> decide

end NameSymbol

inductive NameTree where
  | word (spelling : NameWord) (marks : Nat)
  | node (symbol : NameSymbol) (parts : List NameTree) (marks : Nat)

namespace NameTree

def orNull : NameTree → NameTree
  | .word spelling marks => .word spelling (marks + 1)
  | .node symbol parts marks => .node symbol parts (marks + 1)

mutual

def text : NameTree → List Char
  | .word spelling marks => spelling.spelled.toList ++ List.replicate marks '?'
  | .node symbol [] marks => symbol.letters ++ '(' :: ')' :: List.replicate marks '?'
  | .node symbol (first :: rest) marks => symbol.letters ++ '(' :: (text first ++ (restText rest ++ List.replicate marks '?'))

def restText : List NameTree → List Char
  | [] => [')']
  | next :: rest => ',' :: (text next ++ restText rest)

end

@[simp] theorem orNull_text (tree : NameTree) : tree.orNull.text = tree.text ++ ['?'] := by
  cases tree with
  | word => simp [orNull, text, List.replicate_succ']
  | node symbol parts marks => cases parts <;> simp [orNull, text, List.replicate_succ']

/-- A text that cannot go on with a letter, a mark or an opening bracket. -/
def Closed (text : List Char) : Prop :=
  ∀ char ∈ text.head?, char = ')' ∨ char = ','

theorem Closed.stops {text : List Char} (closed : Closed text) : ∀ char ∈ text.head?, (char == '?') = false := by
  intro char member
  rcases closed char member with rfl | rfl <;> rfl

theorem Closed.restText (parts : List NameTree) (text : List Char) : Closed (restText parts ++ text) := by
  cases parts <;> simp [NameTree.restText, Closed]

/-- Where letters and other characters follow each other, the border is where the first other character is. -/
theorem append_unique {accepts : Char → Bool} {first second rest more : List Char} (firstAll : first.all accepts = true)
    (secondAll : second.all accepts = true) (restStops : ∀ char ∈ rest.head?, accepts char = false)
    (moreStops : ∀ char ∈ more.head?, accepts char = false) (same : first ++ rest = second ++ more) :
    first = second ∧ rest = more := by
  induction first generalizing second with
  | nil =>
    cases second with
    | nil => exact ⟨rfl, same⟩
    | cons char others =>
      rw [List.all_cons, Bool.and_eq_true] at secondAll
      obtain rfl : rest = char :: (others ++ more) := same
      rw [restStops char rfl] at secondAll
      cases secondAll.1
  | cons char others ih =>
    rw [List.all_cons, Bool.and_eq_true] at firstAll
    cases second with
    | nil =>
      obtain rfl : char :: (others ++ rest) = more := same
      rw [moreStops char rfl] at firstAll
      cases firstAll.1
    | cons char' others' =>
      rw [List.all_cons, Bool.and_eq_true] at secondAll
      obtain ⟨rfl, tails⟩ := List.cons.inj same
      obtain ⟨rfl, rfl⟩ := ih firstAll.2 secondAll.2 tails
      exact ⟨rfl, rfl⟩

theorem marks_unique {marks others : Nat} {rest more : List Char} (restClosed : Closed rest) (moreClosed : Closed more)
    (same : List.replicate marks '?' ++ rest = List.replicate others '?' ++ more) : marks = others ∧ rest = more := by
  obtain ⟨replicated, rests⟩ := @append_unique (· == '?') _ _ _ _ (by simp) (by simp) restClosed.stops moreClosed.stops same
  exact ⟨by simpa using congrArg List.length replicated, rests⟩

theorem marks_stop {marks : Nat} {rest : List Char} (closed : Closed rest) :
    ∀ char ∈ (List.replicate marks '?' ++ rest).head?, char = '?' ∨ char = ')' ∨ char = ',' := by
  intro char member
  cases marks with
  | zero => exact .inr (closed char member)
  | succ marks =>
    cases member
    exact .inl rfl

theorem marks_no_letter {marks : Nat} {rest : List Char} (closed : Closed rest) :
    ∀ char ∈ (List.replicate marks '?' ++ rest).head?, char.isAlpha = false := by
  intro char member
  rcases marks_stop closed char member with rfl | rfl | rfl <;> decide

def bracketed : List NameTree → List Char → List Char
  | [], rest => '(' :: ')' :: rest
  | first :: others, rest => '(' :: (text first ++ (restText others ++ rest))

theorem node_text (symbol : NameSymbol) (parts : List NameTree) (marks : Nat) (rest : List Char) :
    (node symbol parts marks).text ++ rest = symbol.letters ++ bracketed parts (List.replicate marks '?' ++ rest) := by
  cases parts <;> simp [text, bracketed]

theorem bracketed_head (parts : List NameTree) (rest : List Char) : (bracketed parts rest).head? = some '(' := by
  cases parts <;> rfl

theorem text_starts (tree : NameTree) (rest : List Char) : (tree.text ++ rest).head? ≠ some ')' := by
  intro start
  cases tree with
  | word spelling marks =>
    obtain ⟨first, others, spelled, letter⟩ := spelling.spelled_starts
    rw [text, spelled] at start
    cases start
    cases letter
  | node symbol parts marks =>
    rw [node_text] at start
    cases symbol with
    | tuple => simp [NameSymbol.letters, bracketed_head] at start
    | _ => simp [NameSymbol.letters] at start

mutual

/-- The text of a name can be read in one way only. -/
theorem text_unique (tree other : NameTree) {rest more : List Char} (restClosed : Closed rest) (moreClosed : Closed more)
    (same : tree.text ++ rest = other.text ++ more) : tree = other ∧ rest = more := by
  have opens (parts : List NameTree) (rest : List Char) : ∀ char ∈ (bracketed parts rest).head?, char.isAlpha = false := by
    intro char member
    rw [bracketed_head] at member
    cases member
    decide
  match tree, other with
  | .word spelling marks, .word spelling' marks' =>
    rw [text, text, List.append_assoc, List.append_assoc] at same
    obtain ⟨spelled, rests⟩ := append_unique spelling.spelled_letters spelling'.spelled_letters (marks_no_letter restClosed)
      (marks_no_letter moreClosed) same
    obtain ⟨rfl, rfl⟩ := marks_unique restClosed moreClosed rests
    have words := spelling.ofText?_spelled
    rw [String.toList_injective spelled, spelling'.ofText?_spelled] at words
    cases words
    exact ⟨rfl, rfl⟩
  | .word spelling marks, .node symbol parts marks' =>
    rw [node_text, text, List.append_assoc] at same
    obtain ⟨-, rests⟩ := append_unique spelling.spelled_letters symbol.letters_all (marks_no_letter restClosed) (opens _ _) same
    have start := marks_stop restClosed '(' (by rw [rests, bracketed_head]; rfl)
    simp at start
  | .node symbol parts marks, .word spelling marks' =>
    rw [node_text, text, List.append_assoc] at same
    obtain ⟨-, rests⟩ := append_unique symbol.letters_all spelling.spelled_letters (opens _ _) (marks_no_letter moreClosed) same
    have start := marks_stop moreClosed '(' (by rw [← rests, bracketed_head]; rfl)
    simp at start
  | .node symbol parts marks, .node symbol' parts' marks' =>
    rw [node_text, node_text] at same
    obtain ⟨letters, brackets⟩ := append_unique symbol.letters_all symbol'.letters_all (opens _ _) (opens _ _) same
    obtain rfl := NameSymbol.letters_injective letters
    suffices parts = parts' ∧ List.replicate marks '?' ++ rest = List.replicate marks' '?' ++ more by
      obtain ⟨rfl, marked⟩ := this
      obtain ⟨rfl, rfl⟩ := marks_unique restClosed moreClosed marked
      exact ⟨rfl, rfl⟩
    match parts, parts' with
    | [], [] => exact ⟨rfl, (List.cons.inj (List.cons.inj brackets).2).2⟩
    | [], first' :: others' => exact absurd ((congrArg List.head? (List.cons.inj brackets).2).symm) (text_starts first' _)
    | first :: others, [] => exact absurd (congrArg List.head? (List.cons.inj brackets).2) (text_starts first _)
    | first :: later, first' :: later' =>
      obtain ⟨rfl, others⟩ := text_unique first first' (.restText later _) (.restText later' _) (List.cons.inj brackets).2
      obtain ⟨rfl, marked⟩ := restText_unique later later' others
      exact ⟨rfl, marked⟩

theorem restText_unique (parts others : List NameTree) {rest more : List Char}
    (same : restText parts ++ rest = restText others ++ more) : parts = others ∧ rest = more := by
  match parts, others with
  | [], [] => exact ⟨rfl, (List.cons.inj same).2⟩
  | [], _ :: _ => cases (List.cons.inj same).1
  | _ :: _, [] => cases (List.cons.inj same).1
  | next :: parts, next' :: others =>
    rw [restText, restText, List.cons_append, List.cons_append, List.append_assoc, List.append_assoc] at same
    obtain ⟨rfl, later⟩ := text_unique next next' (.restText parts _) (.restText others _) (List.cons.inj same).2
    obtain ⟨rfl, rests⟩ := restText_unique parts others later
    exact ⟨rfl, rests⟩

end

theorem text_injective {tree other : NameTree} (same : tree.text = other.text) : tree = other := by
  have closed : Closed [] := by simp [Closed]
  exact (text_unique tree other closed closed (by simpa using same)).1

end NameTree

namespace Structure

/-- Made of `object`, basic types, arrays, collections and tuples without labels. -/
inductive Simple : Structure → Prop where
  | any : Simple .any
  | basic (type : BasicType) : Simple (.basic type)
  | array {item : Structure} (simple : Simple item) : Simple (.array item)
  | list {item : Structure} {form : CollectionForm} (simple : Simple item) : Simple (.list item form)
  | set {item : Structure} {form : CollectionForm} (simple : Simple item) : Simple (.set item form)
  | dictionary {key value : Structure} {form : CollectionForm} (simpleKey : Simple key) (simpleValue : Simple value) :
      Simple (.dictionary key value form)
  | tuple {elements : List (Structure × Option String)} (simple : ∀ element ∈ elements, Simple element.1)
      (unlabelled : ∀ element ∈ elements, element.2 = none) : Simple (.tuple elements)
  | nullable {inner : Structure} (simple : Simple inner) : Simple (.nullable inner)

def isByte : Structure → Bool
  | .basic .byte => true
  | _ => false

def isText : Structure → Bool
  | .basic .string | .nullable (.basic .string) => true
  | _ => false

mutual

/-- The structure without the forms of collections, and without nulls of keys that are texts. -/
def forget : Structure → Structure
  | .tuple elements => .tuple (forgetAll elements)
  | .array item => .array (forget item)
  | .list item _ => .list (forget item) .concrete
  | .set item _ => .set (forget item) .concrete
  | .dictionary key value _ => .dictionary (if key.isText then .basic .string else forget key) (forget value) .concrete
  | .nullable inner => .nullable (forget inner)
  | .any => .any
  | .basic type => .basic type
  | .named name => .named name
  | .union members => .union members

def forgetAll : List (Structure × Option String) → List (Structure × Option String)
  | [] => []
  | (element, label) :: rest => (forget element, label) :: forgetAll rest

end

mutual

def tree : Structure → NameTree
  | .any => .word .object 0
  | .basic type => .word (.basic type) 0
  | .array item => if item.isByte then .word .binary 0 else .node .array [tree item] 0
  | .list item _ => .node .list [tree item] 0
  | .set item _ => .node .set [tree item] 0
  | .dictionary key value _ => if key.isText then .node .textMap [tree value] 0 else .node .map [tree key, tree value] 0
  | .tuple elements => .node .tuple (trees elements) 0
  | .nullable inner => (tree inner).orNull
  | .named _ | .union _ => .word .object 0

def trees : List (Structure × Option String) → List NameTree
  | [] => []
  | (element, _) :: rest => tree element :: trees rest

end

def ofWord : NameWord → Structure
  | .object => .any
  | .binary => .array (.basic .byte)
  | .basic type => .basic type

def ofSymbol : NameSymbol → List Structure → Structure
  | .array, [item] => .array item
  | .list, [item] => .list item .concrete
  | .set, [item] => .set item .concrete
  | .textMap, [value] => .dictionary (.basic .string) value .concrete
  | .map, [key, value] => .dictionary key value .concrete
  | .tuple, items => .tuple (items.map fun item => (item, none))
  | _, _ => .any

mutual

def ofTree : NameTree → Structure
  | .word spelling marks => Structure.nullable^[marks] (ofWord spelling)
  | .node symbol parts marks => Structure.nullable^[marks] (ofSymbol symbol (ofTrees parts))

def ofTrees : List NameTree → List Structure
  | [] => []
  | tree :: rest => ofTree tree :: ofTrees rest

end

theorem ofTree_orNull (tree : NameTree) : ofTree tree.orNull = .nullable (ofTree tree) := by
  cases tree <;> simp only [NameTree.orNull, ofTree, Function.iterate_succ_apply']

theorem forget_isByte (unfolded : Structure) : unfolded.forget.isByte = unfolded.isByte := by
  cases unfolded <;> rfl

theorem forget_isText (unfolded : Structure) : unfolded.forget.isText = unfolded.isText := by
  cases unfolded with
  | nullable inner => cases inner <;> rfl
  | _ => rfl

theorem isByte_iff {unfolded : Structure} : unfolded.isByte = true ↔ unfolded = .basic .byte := by
  constructor
  · intro byte
    unfold isByte at byte
    split at byte
    · rfl
    · cases byte
  · rintro rfl
    rfl

theorem isText_iff {unfolded : Structure} :
    unfolded.isText = true ↔ unfolded = .basic .string ∨ unfolded = .nullable (.basic .string) := by
  constructor
  · intro text
    unfold isText at text
    split at text
    · exact .inl rfl
    · exact .inr rfl
    · cases text
  · rintro (rfl | rfl) <;> rfl

/-- A name tells the structure, but for what is forgotten. -/
theorem Simple.ofTree_tree {unfolded : Structure} (simple : Simple unfolded) : ofTree unfolded.tree = unfolded.forget := by
  induction simple with
  | any | basic => rfl
  | @array item simple ih =>
    rw [tree, forget]
    split
    next byte =>
      obtain rfl := isByte_iff.mp byte
      rfl
    next => rw [ofTree, ofTrees, ofTrees, ih]; rfl
  | list simple ih | set simple ih => rw [tree, forget, ofTree, ofTrees, ofTrees, ih]; rfl
  | @dictionary key value form simpleKey simpleValue ihKey ihValue =>
    rw [tree, forget]
    split
    next => rw [ofTree, ofTrees, ofTrees, ihValue]; rfl
    next => rw [ofTree, ofTrees, ofTrees, ofTrees, ihKey, ihValue]; rfl
  | @tuple elements simple unlabelled ih =>
    have each : (ofTrees (trees elements)).map (fun item => (item, none)) = forgetAll elements := by
      clear simple
      induction elements with
      | nil => rfl
      | cons element rest inner =>
        obtain ⟨element, label⟩ := element
        have own := ih (element, label) (by simp)
        have bare : label = none := unlabelled (element, label) (by simp)
        have others := inner (fun other member => unlabelled other (by simp [member])) fun other member => ih other (by simp [member])
        rw [trees, ofTrees, List.map_cons, forgetAll, own, others, bare]
    rw [tree, forget, ofTree, Function.iterate_zero, id_eq, ofSymbol, each]
  | nullable simple ih => rw [tree, forget, ofTree_orNull, ih]

/-- What is forgotten does not occur in the name. -/
theorem Simple.tree_forget {unfolded : Structure} (simple : Simple unfolded) : unfolded.forget.tree = unfolded.tree := by
  induction simple with
  | any | basic => rfl
  | @array item simple ih => rw [forget, tree, tree, forget_isByte, ih]
  | list simple ih | set simple ih => rw [forget, tree, tree, ih]
  | @dictionary key value form simpleKey simpleValue ihKey ihValue =>
    rw [forget, tree, tree, ihValue]
    split
    next => rfl
    next other => rw [forget_isText, if_neg other, ihKey]
  | @tuple elements simple unlabelled ih =>
    have each : trees (forgetAll elements) = trees elements := by
      clear simple unlabelled
      induction elements with
      | nil => rfl
      | cons element rest inner =>
        obtain ⟨element, label⟩ := element
        rw [forgetAll, trees, trees, ih (element, label) (by simp), inner fun other member => ih other (by simp [member])]
    rw [forget, tree, tree, each]
  | nullable simple ih => rw [forget, tree, tree, ih]

end Structure
end Interchange
