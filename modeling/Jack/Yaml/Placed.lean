namespace Jack.Yaml

/-- The characters that a text may hold: tabs, breaks and what can be printed. -/
def isAllowed (c : Char) : Bool :=
  c == '\t' || c == '\n' || c == '\r' || c == '\u0085'
    || (' ' ≤ c && c ≤ '~') || ('\u00a0' ≤ c && c ≤ '\ufffd') || 0x10000 ≤ c.toNat

/-- Makes a newline of every break that means no more than that. -/
def unifyBreaks : List Char → List Char
  | [] => []
  | '\r' :: '\n' :: rest | '\r' :: rest | '\u0085' :: rest => '\n' :: unifyBreaks rest
  | c :: rest => c :: unifyBreaks rest

/-- What ends a line: a newline, or the separator of lines or of paragraphs. -/
def isBreak (c : Char) : Bool :=
  c == '\n' || c == '\u2028' || c == '\u2029'

def isBlank (c : Char) : Bool :=
  c == ' ' || c == '\t'

def isSpacing (c : Char) : Bool :=
  isBlank c || isBreak c

/-- Letters, digits and dashes, of which the names of anchors and of handles are made. -/
def isNameChar (c : Char) : Bool :=
  c.isAlphanum || c == '_' || c == '-'

/-- The marks of lists and mappings within a line. -/
def isFlowMark (c : Char) : Bool :=
  c == ',' || c == '[' || c == ']' || c == '{' || c == '}'

/-- Whether a line ends here, apart from a comment. -/
def isLineEnd (line : List Char) : Bool :=
  match line.dropWhile isBlank with
  | [] | '#' :: _ => true
  | _ => false

/-- A character with its line, with its column there and with its place in the whole text, all
counted from zero. -/
structure Placed where
  char : Char
  line : Nat
  column : Nat
  index : Nat
deriving DecidableEq, Repr

namespace Placed

/-- Characters from some place on. -/
def place (line column index : Nat) : List Char → List Placed
  | [] => []
  | c :: rest =>
    ⟨c, line, column, index⟩ ::
      if isBreak c then place (line + 1) 0 (index + 1) rest
      else place line (column + 1) (index + 1) rest

/-- The characters of a text that holds none but those allowed. -/
def ofText? (text : String) : Option (List Placed) :=
  if text.toList.all isAllowed then some (place 0 0 0 (unifyBreaks text.toList)) else none

/-- The characters at the front of a text that are of one class. -/
def run (inClass : Char → Bool) (text : List Placed) : List Char :=
  (text.takeWhile fun here => inClass here.char).map char

/-- The rest of a line. -/
def lineRest (text : List Placed) : List Char :=
  run (fun c => !isBreak c) text

/-- Whether the next character, if there is one, is of a class. -/
def endsOr (inClass : Char → Bool) (text : List Placed) : Bool :=
  text.head?.all fun next => inClass next.char

/-- Whether there is a next character of a class. -/
def hasNext (inClass : Char → Bool) (text : List Placed) : Bool :=
  text.head?.any fun next => inClass next.char

/-- Whether a line begins with three times one mark, and nothing right behind them. -/
def isTriple (mark : Char) (here : Placed) (rest : List Placed) : Bool :=
  here.column == 0 && here.char == mark && (rest.take 2).map char == [mark, mark]
    && endsOr isSpacing (rest.drop 2)

/-- Whether a document begins or ends here. -/
def isDocumentBound (here : Placed) (rest : List Placed) : Bool :=
  isTriple '-' here rest || isTriple '.' here rest

end Placed

end Jack.Yaml
