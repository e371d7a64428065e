import Jack.Yaml.Scalar
import Jack.Yaml.Tag

namespace Jack.Yaml

inductive Lexeme where
  | directive (directive : Directive)
  | documentStart
  | documentEnd
  /-- A list by lines begins, or a mapping does. -/
  | openItems
  | openPairs
  /-- A list or a mapping by lines ends. -/
  | outdent
  | openList
  | closeList
  | openMapping
  | closeMapping
  /-- An item of a list by lines. -/
  | item
  | comma
  | key
  | value
  | reference (name : String)
  | anchor (name : String)
  | tag (tag : Tag)
  | scalar (style : Style) (text : String)
deriving DecidableEq, Repr

/-- What may turn out to be a key, if a colon follows: how many lexemes stand before it and where
it begins. It has to be one if nothing else can begin there. -/
structure PossibleKey where
  required : Bool
  before : Nat
  start : Placed
deriving DecidableEq, Repr

namespace PossibleKey

/-- A key may have so many characters. -/
def maxLength : Nat := 1024

/-- A key stands on one line, so this place is too far behind its start for it to end there. -/
def isPast (key : PossibleKey) (here : Placed) : Bool :=
  key.start.line < here.line || key.start.index + maxLength < here.index

/-- What is left of a possible key at some place. One that has to be a key cannot be passed. -/
def pass? (here : Placed) : Option PossibleKey → Option (Option PossibleKey)
  | none => some none
  | some key =>
    if key.isPast here then if key.required then none else some none
    else some (some key)

end PossibleKey

/-- How far a text is cut into lexemes: the columns of the lists and mappings by lines that are
open, innermost first, and what may be a key. Within brackets and braces the layout means nothing,
and each of them has a possible key of its own, and so has what is around it. -/
structure Layout where
  lexemes : Array Lexeme
  columns : List Nat
  keyAllowed : Bool
  key : Option PossibleKey
  outerKeys : List (Option PossibleKey)
deriving DecidableEq, Repr

namespace Layout

def start : Layout :=
  ⟨#[], [], true, none, []⟩

def inFlow (layout : Layout) : Bool :=
  !layout.outerKeys.isEmpty

def add (layout : Layout) (lexeme : Lexeme) (keyAllowed : Bool) : Layout :=
  { layout with lexemes := layout.lexemes.push lexeme, keyAllowed }

/-- Gives the possible key up, unless it has to be one. -/
def dropKey? (layout : Layout) : Option Layout :=
  if layout.key.any PossibleKey.required then none else some { layout with key := none }

/-- Gives the possible keys up that cannot end any more. -/
def passKeys? (layout : Layout) (here : Placed) : Option Layout := do
  return {
    layout with
    key := ← PossibleKey.pass? here layout.key
    outerKeys := ← layout.outerKeys.mapM (PossibleKey.pass? here) }

/-- A key may begin here, if one is allowed. It has to where a mapping by lines stands. -/
def allowKey? (layout : Layout) (here : Placed) : Option Layout :=
  if layout.keyAllowed then do
    let layout ← layout.dropKey?
    let required := !layout.inFlow && layout.columns.head? == some here.column
    return { layout with key := some ⟨required, layout.lexemes.size, here⟩ }
  else some layout

/-- Opens a list or a mapping by lines at a column that is further in, before the lexeme with some
index. -/
def indent (layout : Layout) (opening : Lexeme) (column index : Nat) : Layout :=
  if !layout.inFlow && layout.columns.head?.all (· < column) then
    { layout with
      columns := column :: layout.columns
      lexemes := layout.lexemes.insertIdxIfInBounds index opening }
  else layout

/-- Closes the lists and mappings by lines whose columns fail a test. -/
def closeUnless (layout : Layout) (stays : Nat → Bool) : Layout :=
  if layout.inFlow then layout
  else
    let closed := layout.columns.takeWhile fun column => !stays column
    { layout with
      columns := layout.columns.drop closed.length
      lexemes := layout.lexemes ++ closed.map fun _ => Lexeme.outdent }

/-- Closes what stands further in than a column. -/
def outdent (layout : Layout) (column : Nat) : Layout :=
  layout.closeUnless (· ≤ column)

def close (layout : Layout) : Layout :=
  layout.closeUnless fun _ => false

/-- A lexeme on the level of documents, which closes all lists and mappings by lines. -/
def addBound? (layout : Layout) (lexeme : Lexeme) : Option Layout := do
  return (← layout.close.dropKey?).add lexeme false

/-- The mark of an item, or of a key that has one. By lines it may open a list or a mapping. -/
def addMark? (layout : Layout) (opening mark : Lexeme) (here : Placed) : Option Layout :=
  if layout.inFlow then do return (← layout.dropKey?).add mark (mark = .item)
  else if layout.keyAllowed then do
    return (← (layout.indent opening here.column layout.lexemes.size).dropKey?).add mark true
  else none

/-- A colon that divides makes a key of what may be one. Without such a key it has to stand where a
key may. -/
def addColon? (layout : Layout) (here : Placed) : Option Layout :=
  match layout.key with
  | some key =>
    let marked := {
      layout with key := none, lexemes := layout.lexemes.insertIdxIfInBounds key.before .key }
    some ((marked.indent .openPairs key.start.column key.before).add .value false)
  | none =>
    if layout.inFlow then some (layout.add .value false)
    else if layout.keyAllowed then
      some ((layout.indent .openPairs here.column layout.lexemes.size).add .value true)
    else none

/-- A bracket or brace opens, with which a key may begin. -/
def openFlow? (layout : Layout) (opening : Lexeme) (here : Placed) : Option Layout := do
  let layout ← layout.allowKey? here
  return {
    layout.add opening true with key := none, outerKeys := layout.key :: layout.outerKeys }

/-- A bracket or brace closes. -/
def closeFlow? (layout : Layout) (closing : Lexeme) : Option Layout := do
  let layout ← layout.dropKey?
  let closed := match layout.outerKeys with
    | [] => layout
    | key :: outerKeys => { layout with key, outerKeys }
  return closed.add closing false

/-- The beginning of a node, or a whole one, which may be a key. -/
def addNode? (layout : Layout) (here : Placed) (lexeme : Lexeme) (keyBehind : Bool) :
    Option Layout := do
  return (← layout.allowKey? here).add lexeme keyBehind

/-- Marks that may stand right behind a name. -/
def endsName (c : Char) : Bool :=
  isSpacing c || "?:,]\x7d%@\x60".toList.contains c

/-- The name behind the mark of an anchor or of an alias. -/
def readName? (text : List Placed) : Option String :=
  let name := Placed.run isNameChar text
  if name ≠ [] ∧ Placed.endsOr endsName (text.drop name.length) then some (String.ofList name)
  else none

/-- Marks with which no plain scalar begins, apart from those that have to stand alone. -/
def isReserved (c : Char) : Bool :=
  isFlowMark c || "#&*!|>'\"%@\x60".toList.contains c || isSpacing c

/-- Adds the lexeme at the front of a text, and tells how many characters it takes behind its
first one. -/
def addLexeme? (layout : Layout) (here : Placed) (rest : List Placed) : Option (Layout × Nat) := do
  if here.column = 0 ∧ here.char = '%' then
    let line := Placed.lineRest rest
    return (← layout.addBound? (.directive (← Directive.ofLine? line)), line.length + 1)
  else if here.isTriple '-' rest then return (← layout.addBound? .documentStart, 2)
  else if here.isTriple '.' rest then return (← layout.addBound? .documentEnd, 2)
  else
    let inFlow := layout.inFlow
    let endsHere := Placed.endsOr isSpacing rest
    match here.char with
    | '[' => return (← layout.openFlow? .openList here, 0)
    | '{' => return (← layout.openFlow? .openMapping here, 0)
    | ']' => return (← layout.closeFlow? .closeList, 0)
    | '}' => return (← layout.closeFlow? .closeMapping, 0)
    | ',' => return ((← layout.dropKey?).add .comma true, 0)
    | '*' =>
      let name ← readName? rest
      return (← layout.addNode? here (.reference name) false, name.length)
    | '&' =>
      let name ← readName? rest
      return (← layout.addNode? here (.anchor name) false, name.length)
    | '!' =>
      let (tag, size) ← readTag? inFlow rest
      return (← layout.addNode? here (.tag tag) false, size)
    | c =>
      if c = '-' ∧ endsHere then return (← layout.addMark? .openItems .item here, 0)
      else if c = '?' ∧ (inFlow ∨ endsHere) then
        return (← layout.addMark? .openPairs .key here, 0)
      else if c = ':' ∧ (inFlow ∨ endsHere) then return (← layout.addColon? here, 0)
      else if (c = '|' ∨ c = '>') ∧ !inFlow then
        let block ← readBlock (c = '>') layout.columns.head? rest
        return ((← layout.dropKey?).add (.scalar block.style block.text) block.keyBehind,
          block.size)
      else
        let least := layout.columns.head?.elim 0 (· + 1)
        let scalar ←
          if c = '\'' ∨ c = '"' then readQuoted (c = '"') [] .empty 0 rest
          else if isReserved c then none
          else readPlain inFlow least [c] .empty 0 rest
        return (← layout.addNode? here (.scalar scalar.style scalar.text) scalar.keyBehind,
          scalar.size)

/-- Passes over a blank, a break or a comment, or adds a lexeme. A tab may not stand where a key
may begin by lines, and a mark of the order of bytes only in front of a line. -/
def step? (layout : Layout) (here : Placed) (rest : List Placed) : Option (Layout × Nat) :=
  if isBreak here.char then
    some ({ layout with keyAllowed := layout.keyAllowed || !layout.inFlow }, 0)
  else if here.char = '#' then some (layout, (Placed.lineRest rest).length)
  else if here.char = ' ' ∨ (here.char = '\t' ∧ (layout.inFlow ∨ !layout.keyAllowed))
      ∨ (here.char = '\ufeff' ∧ here.column = 0) then
    some (layout, 0)
  else do ((← layout.passKeys? here).outdent here.column).addLexeme? here rest

/-- Cuts a text up, behind what is cut already. -/
def read? (layout : Layout) : List Placed → Option Layout
  | [] => layout.close.dropKey?
  | here :: rest =>
    match layout.step? here rest with
    | none => none
    | some (layout, size) => read? layout (rest.drop size)
termination_by text => text.length
decreasing_by
  simp only [List.length_cons, List.length_drop]
  omega

end Layout

/-- The lexemes of a text. -/
def Lexeme.ofText? (text : String) : Option (List Lexeme) := do
  return (← Layout.start.read? (← Placed.ofText? text)).lexemes.toList

end Jack.Yaml
