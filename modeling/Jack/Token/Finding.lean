import Jack.Log
import Jack.Text.Quoted
import Jack.Token
import Jack.Token.Piece

namespace Jack

/-- What scanning could not use as it stands. Each names the place where the piece begins. -/
inductive Warning where
  | strayCharacter (c : Char) (line column : Nat)
  | openString (line column : Nat)
  | openComment (line column : Nat)
deriving DecidableEq, Repr

namespace Warning

def text : Warning → String
  | strayCharacter c line column =>
    s!"skipping unrecognized character {Text.quoted c} at {line}:{column}"
  | openString line column => s!"unterminated string literal at {line}:{column}"
  | openComment line column => s!"unterminated block comment starting at {line}:{column}"

def message (warning : Warning) : Message :=
  ⟨.warn, warning.text⟩

end Warning

/-- The largest value of a 16-bit word. -/
def maxWord : Nat := 65535

/-- The value of a run of digits, where all values past the largest word count as one. -/
def cappedValue (digits : List Char) : Nat :=
  digits.foldl (fun value c => min (10 * value + (c.toNat - '0'.toNat)) (maxWord + 1)) 0

/-- The value of a run of digits that fits into a word. Leading zeros do not matter. -/
def wordValue? (digits : List Char) : Option Nat :=
  if cappedValue digits ≤ maxWord then some (cappedValue digits) else none

/-- A token whose characters stand at a place. -/
def Token.at (place : Position) (kind : Token.Kind) (literal : Option Literal)
    (text : List Char) : Token :=
  let lexeme := String.ofList text
  { kind, lexeme, literal
    span := ⟨place.offset.toUInt32, lexeme.utf8ByteSize.toUInt32⟩
    line := place.line
    startColumn := place.column
    endColumn := place.column + text.length - 1 }

inductive Finding where
  | token (token : Token)
  | warning (warning : Warning)
deriving DecidableEq, Repr

namespace Finding

def token? : Finding → Option Token
  | token t => some t
  | warning _ => none

def warning? : Finding → Option Warning
  | token _ => none
  | warning w => some w

/-- What a piece amounts to at its place. An open string is a token all the same, whose value is
all that stands behind its quote. -/
def ofPiece (place : Position) (piece : Piece) : List Finding :=
  match piece with
  | .blank _ | .lineComment _ | .blockComment _ => []
  | .openComment _ => [warning (.openComment place.line place.column)]
  | .word letters =>
    let kind :=
      match Keyword.ofText? (String.ofList letters) with
      | some word => Token.Kind.keyword word
      | none => .identifier
    [token (.at place kind none piece.text)]
  | .number digits =>
    [token (.at place .integer ((wordValue? digits).map .number) piece.text)]
  | .closedString body =>
    [token (.at place .string (some (.text (String.ofList body))) piece.text)]
  | .openString body =>
    [warning (.openString place.line place.column),
     token (.at place .string (some (.text (String.ofList body))) piece.text)]
  | .symbol mark => [token (.at place (.symbol mark) none piece.text)]
  | .stray c => [warning (.strayCharacter c place.line place.column)]

/-- What pieces from a place on amount to, behind what was found before. -/
def ofPiecesOnto (found : Array Finding) (place : Position) : List Piece → Array Finding
  | [] => found
  | piece :: pieces =>
    ofPiecesOnto (found ++ ofPiece place piece) (place.after piece.text) pieces

def ofPieces (place : Position) (pieces : List Piece) : List Finding :=
  (ofPiecesOnto #[] place pieces).toList

/-- Everything found in a source text, in order. -/
def ofSource (source : String) : List Finding :=
  ofPieces .start (Piece.cut source.toList)

def tokens (findings : List Finding) : List Token :=
  findings.filterMap token?

def warnings (findings : List Finding) : List Warning :=
  findings.filterMap warning?

/-- The findings up to and including a number of tokens, or all of them if there are not as many
tokens. -/
def through : Nat → List Finding → List Finding
  | 0, _ => []
  | _ + 1, [] => []
  | count + 1, token t :: rest => token t :: through count rest
  | count + 1, warning w :: rest => warning w :: through (count + 1) rest

theorem toList_ofPiecesOnto (found : Array Finding) (place : Position) (pieces : List Piece) :
    (ofPiecesOnto found place pieces).toList = found.toList ++ ofPieces place pieces := by
  induction pieces generalizing found place with
  | nil => simp [ofPieces, ofPiecesOnto]
  | cons piece pieces ih =>
    rw [ofPieces, ofPiecesOnto, ofPiecesOnto, ih, ih (#[] ++ _)]
    simp

theorem ofPieces_cons (place : Position) (piece : Piece) (pieces : List Piece) :
    ofPieces place (piece :: pieces) =
      ofPiece place piece ++ ofPieces (place.after piece.text) pieces := by
  rw [ofPieces, ofPiecesOnto, toList_ofPiecesOnto]
  simp

end Finding

end Jack
