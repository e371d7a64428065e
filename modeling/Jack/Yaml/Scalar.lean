import Jack.Text.Digits
import Jack.Yaml.Placed

namespace Jack.Yaml

inductive Style where
  | plain
  | singleQuoted
  | doubleQuoted
  | literal
  | folded
deriving DecidableEq, Repr

/-- A scalar in a text: what it says, how many characters it takes behind its first one, and
whether a key may begin right behind it. -/
structure Written where
  style : Style
  text : String
  size : Nat
  keyBehind : Bool
deriving DecidableEq, Repr

/-- What stands between two words, last first: blanks, or breaks with blanks around them. There is
no first break if that one was escaped. -/
inductive Gap where
  | blanks (passed : List Char)
  | breaks (first : Option Char) (further : List Char)
deriving DecidableEq, Repr

namespace Gap

def empty : Gap :=
  .blanks []

def isBroken : Gap → Bool
  | blanks _ => false
  | breaks .. => true

def add (gap : Gap) (c : Char) : Gap :=
  match gap with
  | blanks passed => if isBreak c then breaks (some c) [] else blanks (c :: passed)
  | breaks first further => if isBreak c then breaks first (c :: further) else gap

/-- A text, last character first, with what a gap behind it stands for. A newline alone is a
space, and one before other breaks is nothing. -/
def onto (gap : Gap) (text : List Char) : List Char :=
  match gap with
  | blanks passed => passed ++ text
  | breaks (some '\n') [] => ' ' :: text
  | breaks (some '\n') further => further ++ text
  | breaks first further => further ++ first.toList ++ text

end Gap

/-- Whether a plain scalar ends before the word that begins here, behind a gap: at a comment, at
the bounds of its document, or to the left of the column that it has to keep. -/
def endsAtWord (inFlow : Bool) (least : Nat) (here : Placed) (rest : List Placed) : Bool :=
  here.char == '#' || here.isDocumentBound rest || (!inFlow && here.column < least)

/-- Whether a plain scalar ends within a word: where a colon divides, or at a mark of the list or
mapping around it. -/
def endsInWord (inFlow : Bool) (here : Placed) (rest : List Placed) : Bool :=
  (here.char == ':' && Placed.endsOr isSpacing rest) || (inFlow && isFlowMark here.char)

/-- Whether a colon stands where it neither divides nor belongs to a word. -/
def isStrayColon (inFlow : Bool) (here : Placed) (rest : List Placed) : Bool :=
  inFlow && here.char == ':' && Placed.hasNext (fun c => isFlowMark c || c == '?') rest

/-- Reads on in a plain scalar, behind the text so far and a gap. Lines after the first one may
not keep their column by tabs. -/
def readPlain (inFlow : Bool) (least : Nat) (text : List Char) (gap : Gap) (size : Nat) :
    List Placed → Option Written
  | [] => some ⟨.plain, String.ofList text.reverse, size, gap.isBroken⟩
  | here :: rest =>
    if isSpacing here.char then
      if gap.isBroken ∧ here.char = '\t' ∧ here.column < least then none
      else readPlain inFlow least text (gap.add here.char) (size + 1) rest
    else if gap ≠ .empty ∧ endsAtWord inFlow least here rest then
      some ⟨.plain, String.ofList text.reverse, size, gap.isBroken⟩
    else if isStrayColon inFlow here rest then none
    else if endsInWord inFlow here rest then
      some ⟨.plain, String.ofList text.reverse, size, gap.isBroken⟩
    else readPlain inFlow least (here.char :: gap.onto text) .empty (size + 1) rest

/-- The character that a short escape stands for. -/
def escaped? : Char → Option Char
  | '0' => some '\x00'
  | 'a' => some '\x07'
  | 'b' => some '\x08'
  | 't' | '\t' => some '\t'
  | 'n' => some '\n'
  | 'v' => some '\x0b'
  | 'f' => some '\x0c'
  | 'r' => some '\r'
  | 'e' => some '\x1b'
  | ' ' => some ' '
  | '"' => some '"'
  | '/' => some '/'
  | '\\' => some '\\'
  | 'N' => some '\u0085'
  | '_' => some '\u00a0'
  | 'L' => some '\u2028'
  | 'P' => some '\u2029'
  | _ => none

/-- How many digits follow an escape that gives a character by its number. -/
def codeLength? : Char → Option Nat
  | 'x' => some 2
  | 'u' => some 4
  | 'U' => some 8
  | _ => none

/-- The character with a number of so many digits. -/
def ofCode? (length : Nat) (digits : List Char) : Option Char := do
  let code ← Text.Digits.word? 16 digits
  if digits.length = length ∧ code.isValidChar then return Char.ofNat code else none

/-- What an escape stands for, and how many characters it takes behind its backslash. A break that
is escaped stands for nothing. -/
def escape? : List Placed → Option (Option Char × Nat)
  | [] => none
  | here :: rest =>
    if isBreak here.char then some (none, 1)
    else
      match codeLength? here.char with
      | some length => do
        let c ← ofCode? length ((rest.take length).map Placed.char)
        return (some c, length + 1)
      | none => do return (some (← escaped? here.char), 1)

/-- Reads on between quotes, behind the text so far and a gap. Between single quotes only the
quote itself is written twice, between double quotes a backslash begins an escape. The document
may not end before the scalar does. -/
def readQuoted (double : Bool) (text : List Char) (gap : Gap) (size : Nat) :
    List Placed → Option Written
  | [] => none
  | here :: rest =>
    if isSpacing here.char then readQuoted double text (gap.add here.char) (size + 1) rest
    else if here.isDocumentBound rest then none
    else
      let text := gap.onto text
      if double then
        if here.char = '"' then
          some ⟨.doubleQuoted, String.ofList text.reverse, size + 1, false⟩
        else if here.char = '\\' then
          match escape? rest with
          | none => none
          | some (some c, length) =>
            readQuoted double (c :: text) .empty (size + 1 + length) (rest.drop length)
          | some (none, length) =>
            readQuoted double text (.breaks none []) (size + 1 + length) (rest.drop length)
        else readQuoted double (here.char :: text) .empty (size + 1) rest
      else if here.char = '\'' then
        if Placed.hasNext (· == '\'') rest then
          readQuoted double ('\'' :: text) .empty (size + 2) (rest.drop 1)
        else some ⟨.singleQuoted, String.ofList text.reverse, size + 1, false⟩
      else readQuoted double (here.char :: text) .empty (size + 1) rest
termination_by text => text.length
decreasing_by
  all_goals simp only [List.length_cons, List.length_drop]
  all_goals omega

/-- What becomes of the breaks behind the last line of a block. -/
inductive Chomping where
  | strip
  | clip
  | keep
deriving DecidableEq, Repr

def splitChomping : List Char → Option Chomping × List Char
  | '-' :: rest => (some .strip, rest)
  | '+' :: rest => (some .keep, rest)
  | rest => (none, rest)

/-- How many columns further in a block stands, if that is said. It may not be none. -/
def splitIncrement? : List Char → Option (Option Nat × List Char)
  | '0' :: _ => none
  | c :: rest => some (if c.isDigit then (some (c.toNat - '0'.toNat), rest) else (none, c :: rest))
  | [] => some (none, [])

/-- What the first line of a block says behind its mark. -/
def blockHeader? (line : List Char) : Option (Chomping × Option Nat) := do
  let (before, line) := splitChomping line
  let (increment, line) ← splitIncrement? line
  let (behind, line) := if before.isSome then (none, line) else splitChomping line
  if isLineEnd line then return ((before <|> behind).getD .clip, increment) else none

/-- How far a block is read: its text, last character first, the break behind the last line and
those after it, again last first. The first line that is not blank fixes the column of the others,
but none is to the left of the least, nor of a blank line above it. -/
structure Block where
  isFolded : Bool
  least : Nat
  column : Option Nat
  widest : Nat
  text : List Char
  inLine : Bool
  lineBreak : Option Char
  further : List Char
  beganBlank : Bool
deriving DecidableEq, Repr

namespace Block

/-- Whether a column is still within the indent. -/
def isIndent (block : Block) (column : Nat) : Bool :=
  block.column.all (column < ·)

/-- A line begins with a character at some column. The break before it becomes a space if the
block is folded and neither line stands further in. -/
def beginLine (block : Block) (column : Nat) (c : Char) : Block :=
  let folds := block.isFolded && block.lineBreak == some '\n' && !block.beganBlank && !isBlank c
  let kept :=
    if folds then if block.further = [] then [' '] else []
    else block.lineBreak.toList
  { block with
    column := some column
    text := c :: (block.further ++ kept ++ block.text)
    inLine := true
    lineBreak := none
    further := []
    beganBlank := isBlank c }

/-- Reads on up to a line that stands to the left. A tab may not be part of the indent. -/
def read (block : Block) (size : Nat) : List Placed → Option (Block × Nat)
  | [] => some (block, size)
  | here :: rest =>
    if block.inLine then
      if isBreak here.char then
        read { block with inLine := false, lineBreak := some here.char } (size + 1) rest
      else read { block with text := here.char :: block.text } (size + 1) rest
    else if isBreak here.char then
      read
        { block with
          widest := max block.widest here.column
          further := here.char :: block.further }
        (size + 1) rest
    else if block.isIndent here.column && here.char == ' ' then read block (size + 1) rest
    else if block.isIndent here.column && here.char == '\t' then none
    else
      let column := block.column.getD (max (max block.widest here.column) block.least)
      if here.column = column then read (block.beginLine column here.char) (size + 1) rest
      else some (block, size)

/-- The text of a block that is read, last character first. -/
def chomped (block : Block) : Chomping → List Char
  | .strip => block.text
  | .clip => block.lineBreak.toList ++ block.text
  | .keep => block.further ++ block.lineBreak.toList ++ block.text

end Block

/-- Reads a block of lines below a line whose block begins at some column. -/
def readBlock (isFolded : Bool) (outer : Option Nat) (text : List Placed) : Option Written := do
  let line := Placed.lineRest text
  let (chomping, increment) ← blockHeader? line
  let start : Block := {
    isFolded
    least := max (outer.elim 0 (· + 1)) 1
    column := increment.map (outer.getD 0 + ·)
    widest := 0
    text := []
    inLine := false
    lineBreak := none
    further := []
    beganBlank := false }
  let (block, size) ← start.read (line.length + 1) (text.drop (line.length + 1))
  return {
    style := if isFolded then .folded else .literal
    text := String.ofList (block.chomped chomping).reverse
    size
    keyBehind := true }

end Jack.Yaml
