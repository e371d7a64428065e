import Jack.Proofs.Partition

namespace Jack

/-- What a token is apart from its place. -/
def Token.face (token : Token) : Token.Kind × String × Option Literal :=
  (token.kind, token.lexeme, token.literal)

/-- Tokens as they are written: keywords and symbols, names that are no keywords, numbers of any
length, and strings with and without their last quote. -/
inductive Lexeme where
  | keyword (word : Keyword)
  | symbol (mark : Symbol)
  | identifier (first : Char) (more : List Char) (isFirst : Piece.isLetter first = true)
      (isName : ∀ c ∈ more, Piece.isWordChar c = true)
      (notKeyword : ∀ word : Keyword, word.text.toList ≠ first :: more)
  | integer (digits : List Char) (inhabited : digits ≠ [])
      (isNumber : ∀ c ∈ digits, c.isDigit = true)
  | closedString (body : List Char) (noQuote : '"' ∉ body) (inLine : '\n' ∉ body)
  | openString (body : List Char) (noQuote : '"' ∉ body) (inLine : '\n' ∉ body)

namespace Lexeme

def text : Lexeme → List Char
  | keyword word => word.text.toList
  | symbol mark => [mark.char]
  | identifier first more .. => first :: more
  | integer digits .. => digits
  | closedString body .. => '"' :: (body ++ ['"'])
  | openString body .. => '"' :: body

def kind : Lexeme → Token.Kind
  | keyword word => .keyword word
  | symbol mark => .symbol mark
  | identifier .. => .identifier
  | integer .. => .integer
  | closedString .. | openString .. => .string

/-- Only numbers and strings have values, and numbers only if they fit into a word. -/
def literal : Lexeme → Option Literal
  | integer digits .. =>
    if Nat.ofDigitChars 10 digits 0 ≤ 65535 then some (.number (Nat.ofDigitChars 10 digits 0))
    else none
  | closedString body .. | openString body .. => some (.text (String.ofList body))
  | keyword _ | symbol _ | identifier .. => none

def face (lexeme : Lexeme) : Token.Kind × String × Option Literal :=
  (lexeme.kind, String.ofList lexeme.text, lexeme.literal)

/-- Only a string without its last quote needs the end of a line behind it. -/
def isOpen : Lexeme → Bool
  | openString .. => true
  | _ => false

end Lexeme

/-- Blanks and comments that end, in any order. -/
inductive Space : List Char → Prop
  | nothing : Space []
  | blank {c : Char} {more : List Char} (isBlank : Piece.isBlank c = true) (further : Space more) :
      Space (c :: more)
  | blockComment {body more : List Char} (first : ¬Piece.commentEnd <:+: body ++ ['*'])
      (further : Space more) : Space ('/' :: '*' :: (body ++ '*' :: '/' :: more))
  | lineComment {body more : List Char} (inLine : '\n' ∉ body) (further : Space more) :
      Space ('/' :: '/' :: (body ++ '\n' :: more))

/-- Texts that lexemes are printed to. A blank comes behind each of them but the last, and then any
space. Behind a string without its last quote this blank is a newline. -/
inductive Prints : List Lexeme → List Char → Prop
  | nothing : Prints [] []
  | last (lexeme : Lexeme) : Prints [lexeme] lexeme.text
  | more (lexeme : Lexeme) {c : Char} {space text : List Char} {next : Lexeme}
      {others : List Lexeme} (isBlank : Piece.isBlank c = true)
      (ends : lexeme.isOpen = true → c = '\n') (isSpace : Space space)
      (further : Prints (next :: others) text) :
      Prints (lexeme :: next :: others) (lexeme.text ++ c :: (space ++ text))

namespace Lexeme

/-- The piece that a lexeme is found as. -/
def piece : Lexeme → Piece
  | keyword word => .word word.text.toList
  | symbol mark => .symbol mark
  | identifier first more .. => .word (first :: more)
  | integer digits .. => .number digits
  | closedString body .. => .closedString body
  | openString body .. => .openString body

theorem text_piece (lexeme : Lexeme) : lexeme.piece.text = lexeme.text := by
  cases lexeme <;> rfl

theorem reads (lexeme : Lexeme) : lexeme.piece.Reads lexeme.kind lexeme.literal := by
  cases lexeme with
  | keyword word => exact .keyword word
  | symbol mark => exact .symbol mark
  | identifier first more isFirst isName notKeyword => exact .identifier notKeyword
  | integer digits =>
    by_cases small : Nat.ofDigitChars 10 digits 0 ≤ 65535
    · rw [literal, if_pos small]
      exact .integer small
    · rw [literal, if_neg small]
      exact .largeInteger (Nat.lt_of_not_le small)
  | closedString body => exact .closedString body
  | openString body => exact .openString body

/-- Keywords are words. -/
theorem isWord_keyword (word : Keyword) :
    (∃ c more, word.text.toList = c :: more ∧ Piece.isLetter c = true) ∧
      ∀ c ∈ word.text.toList, Piece.isWordChar c = true := by
  cases word <;> exact ⟨⟨_, _, rfl, rfl⟩, List.all_eq_true.1 rfl⟩

/-- A lexeme ends in front of a blank and at the end of a text. -/
theorem fits (lexeme : Lexeme) {rest : List Char}
    (stops : ∀ c ∈ rest.head?, Piece.isBlank c = true)
    (ends : lexeme.isOpen = true → Piece.EndsLine rest) : lexeme.piece.Fits rest := by
  have notChar : ∀ c ∈ rest.head?, Piece.isWordChar c = false := by
    intro c isHead
    obtain rfl | rfl | rfl | rfl := Piece.isBlank_iff.1 (stops c isHead) <;> decide
  have notDigit : ∀ c ∈ rest.head?, c.isDigit = false :=
    fun c isHead => (Bool.or_eq_false_iff.1 (notChar c isHead)).2
  have noComment : ∀ c ∈ rest.head?, c ≠ '/' ∧ c ≠ '*' := by
    intro c isHead
    obtain rfl | rfl | rfl | rfl := Piece.isBlank_iff.1 (stops c isHead) <;> decide
  cases lexeme with
  | keyword word => exact ⟨(isWord_keyword word).1, (isWord_keyword word).2, notChar⟩
  | symbol mark => exact fun _ => noComment
  | identifier first more isFirst isName =>
    have isChar : Piece.isWordChar first = true := by rw [Piece.isWordChar, isFirst, Bool.true_or]
    exact ⟨⟨first, more, rfl, isFirst⟩, List.forall_mem_cons.2 ⟨isChar, isName⟩, notChar⟩
  | integer digits inhabited isNumber => exact ⟨inhabited, isNumber, notDigit⟩
  | closedString body noQuote inLine => exact ⟨noQuote, inLine⟩
  | openString body noQuote inLine => exact ⟨noQuote, inLine, ends rfl⟩

end Lexeme

/-- A token in a text is a lexeme. -/
theorem Piece.Reads.exists_lexeme {piece : Piece} {kind : Token.Kind} {literal : Option Literal}
    {rest : List Char} (reads : piece.Reads kind literal) (fits : piece.Fits rest) :
    ∃ lexeme : Lexeme, lexeme.face = (kind, String.ofList piece.text, literal) := by
  cases reads with
  | keyword word => exact ⟨.keyword word, rfl⟩
  | identifier notKeyword =>
    obtain ⟨⟨c, more, rfl, isFirst⟩, isName, -⟩ := fits
    exact ⟨.identifier c more isFirst (List.forall_mem_cons.1 isName).2 notKeyword, rfl⟩
  | @integer digits small =>
    exact ⟨.integer digits fits.1 fits.2.1, by rw [Lexeme.face, Lexeme.literal, if_pos small]; rfl⟩
  | @largeInteger digits exceeds =>
    exact ⟨.integer digits fits.1 fits.2.1, by
      rw [Lexeme.face, Lexeme.literal, if_neg (Nat.not_le.2 exceeds)]; rfl⟩
  | closedString body => exact ⟨.closedString body fits.1 fits.2, rfl⟩
  | openString body => exact ⟨.openString body fits.1 fits.2.1, rfl⟩
  | symbol mark => exact ⟨.symbol mark, rfl⟩

namespace Scans

variable {place : Position} {rest : List Char} {tokens : List Token} {warnings : List Warning}

theorem pass {piece : Piece} (skipped : piece.Skipped) (silent : piece.warning? place = none)
    (fits : piece.Fits rest) (further : Scans (place.after piece.text) rest tokens warnings) :
    Scans place (piece.text ++ rest) tokens warnings := by
  have scans := skip skipped fits further
  rwa [silent] at scans

/-- Space is passed without a token and without a warning. -/
theorem space {text : List Char} (space : Space text)
    (further : Scans (place.after text) rest tokens warnings) :
    Scans place (text ++ rest) tokens warnings := by
  induction space generalizing place with
  | nothing => exact further
  | @blank c more isBlank _ ih =>
    exact pass (.blank c) rfl (Piece.isBlank_iff.1 isBlank) (ih further)
  | @blockComment body more first _ ih =>
    have spelt : '/' :: '*' :: (body ++ '*' :: '/' :: more) =
        (Piece.blockComment body).text ++ more := by
      simp [Piece.text]
    rw [spelt, Position.after_append] at further
    rw [spelt, List.append_assoc]
    exact pass (.blockComment body) rfl first (ih further)
  | @lineComment body more inLine _ ih =>
    have spelt : '/' :: '/' :: (body ++ '\n' :: more) =
        (Piece.lineComment body).text ++ '\n' :: more := rfl
    rw [spelt, Position.after_append] at further
    rw [spelt, List.append_assoc]
    refine pass (.lineComment body) rfl ⟨inLine, fun c isHead => (Option.some.inj isHead).symm⟩ ?_
    exact pass (.blank '\n') rfl (.inr (.inr (.inr rfl))) (ih further)

/-- Reading finds lexemes, in this order. -/
theorem exists_lexemes {text : List Char} (scans : Scans place text tokens warnings) :
    ∃ lexemes : List Lexeme, lexemes.map Lexeme.face = tokens.map Token.face := by
  induction scans with
  | nothing => exact ⟨[], rfl⟩
  | skip _ _ _ ih => exact ih
  | token reads fits _ ih =>
    obtain ⟨lexemes, same⟩ := ih
    obtain ⟨lexeme, isFace⟩ := reads.exists_lexeme fits
    refine ⟨lexeme :: lexemes, ?_⟩
    rw [List.map_cons, List.map_cons, same, isFace]
    rfl

/-- A lexeme is read as a token with its face, and only reported if it is open. -/
theorem lexeme (lexeme : Lexeme) (stops : ∀ c ∈ rest.head?, Piece.isBlank c = true)
    (ends : lexeme.isOpen = true → Piece.EndsLine rest)
    (further : Scans (place.after lexeme.text) rest tokens warnings) :
    Scans place (lexeme.text ++ rest)
      (.at place lexeme.kind lexeme.literal lexeme.text :: tokens)
      ((if lexeme.isOpen then [.openString place.line place.column] else []) ++ warnings) := by
  have warning : (lexeme.piece.warning? place).toList =
      if lexeme.isOpen then [.openString place.line place.column] else [] := by
    cases lexeme <;> rfl
  have scans := token lexeme.reads (lexeme.fits stops ends) (lexeme.text_piece ▸ further)
  rwa [warning, lexeme.text_piece] at scans

end Scans

/-- Warnings of strings without their last quote, as many as there are such lexemes. -/
def ReportsOpen (lexemes : List Lexeme) (warnings : List Warning) : Prop :=
  ∃ places : List (Nat × Nat), places.length = lexemes.countP Lexeme.isOpen ∧
    warnings = places.map fun place => .openString place.1 place.2

theorem ReportsOpen.cons {lexemes : List Lexeme} {warnings : List Warning}
    (reports : ReportsOpen lexemes warnings) (lexeme : Lexeme) (place : Position) :
    ReportsOpen (lexeme :: lexemes)
      ((if lexeme.isOpen then [.openString place.line place.column] else []) ++ warnings) := by
  obtain ⟨places, length, rfl⟩ := reports
  cases isOpen : lexeme.isOpen with
  | false => exact ⟨places, by rw [List.countP_cons_of_neg (by simp [isOpen]), length], rfl⟩
  | true =>
    refine ⟨(place.line, place.column) :: places, ?_, rfl⟩
    rw [List.countP_cons_of_pos isOpen, List.length_cons, length]

/-- Whatever lexemes are printed to reads as these lexemes, from any place on. -/
theorem Prints.exists_scans {lexemes : List Lexeme} {text : List Char}
    (prints : Prints lexemes text) (place : Position) :
    ∃ tokens warnings, Scans place text tokens warnings ∧
      tokens.map Token.face = lexemes.map Lexeme.face ∧ ReportsOpen lexemes warnings := by
  induction prints generalizing place with
  | nothing => exact ⟨[], [], .nothing place, rfl, [], rfl, rfl⟩
  | last lexeme =>
    have nothing {fact : Char → Prop} : ∀ c ∈ ([] : List Char).head?, fact c :=
      fun c isHead => absurd isHead (Option.not_mem_none c)
    have scans := Scans.lexeme lexeme nothing (fun _ => nothing)
      (.nothing (place.after lexeme.text))
    rw [List.append_nil] at scans
    have none : ReportsOpen [] [] := ⟨[], rfl, rfl⟩
    exact ⟨_, _, scans, rfl, none.cons lexeme place⟩
  | @more lexeme c space text next others isBlank ends isSpace further ih =>
    obtain ⟨tokens, warnings, scans, faces, reports⟩ :=
      ih (place.after (lexeme.text ++ c :: space))
    rw [Position.after_append] at scans
    have separator : Space (c :: space) := .blank isBlank isSpace
    have head {fact : Char → Prop} (holds : fact c) :
        ∀ d ∈ (c :: (space ++ text)).head?, fact d :=
      fun d isHead => Option.some.inj isHead ▸ holds
    refine ⟨_, _, Scans.lexeme lexeme (head isBlank) (fun isOpen => head (ends isOpen))
      (scans.space separator), ?_, reports.cons lexeme place⟩
    rw [List.map_cons, List.map_cons, faces]
    rfl

/-- Lexemes on lines of their own. -/
theorem Prints.lines (lexemes : List Lexeme) :
    Prints lexemes (['\n'].intercalate (lexemes.map Lexeme.text)) := by
  induction lexemes with
  | nil => exact .nothing
  | cons lexeme lexemes ih =>
    cases lexemes with
    | nil =>
      rw [List.map_singleton, List.intercalate_singleton]
      exact .last lexeme
    | cons next others =>
      rw [List.map_cons, List.map_cons, List.intercalate_cons_cons, List.append_assoc]
      exact .more lexeme rfl (fun _ => rfl) .nothing ih

namespace Finding

/-- The lexemes of the tokens of a source, each on a line of its own. -/
def relined (source : String) : String :=
  "\n".intercalate ((tokens (ofSource source)).map Token.lexeme)

/-- Scanning what lexemes are printed to finds tokens with their kinds, texts and values, and
reports nothing but the strings without their last quote. So the tokens of any source, printed on
lines of their own, are found again. -/
theorem ofSource_undoes_printing :
    (∀ (lexemes : List Lexeme) (source : String), Prints lexemes source.toList →
      (tokens (ofSource source)).map Token.face = lexemes.map Lexeme.face ∧
        ReportsOpen lexemes (warnings (ofSource source))) ∧
    ∀ source : String, (tokens (ofSource (relined source))).map Token.face =
      (tokens (ofSource source)).map Token.face := by
  have undoes (lexemes : List Lexeme) (source : String) (prints : Prints lexemes source.toList) :
      (tokens (ofSource source)).map Token.face = lexemes.map Lexeme.face ∧
        ReportsOpen lexemes (warnings (ofSource source)) := by
    obtain ⟨found, reports, scans, faces, isOpen⟩ := prints.exists_scans .start
    obtain ⟨rfl, rfl⟩ := scans.unique
    exact ⟨faces, isOpen⟩
  refine ⟨undoes, fun source => ?_⟩
  obtain ⟨lexemes, same⟩ := (Scans.of_cut .start source.toList).exists_lexemes
  have texts : (tokens (ofSource source)).map Token.lexeme =
      lexemes.map fun lexeme => String.ofList lexeme.text := by
    have lexed := congrArg (List.map fun face => face.2.1) same
    rw [List.map_map, List.map_map] at lexed
    exact lexed.symm
  have prints : Prints lexemes (relined source).toList := by
    have newline : "\n".toList = ['\n'] := rfl
    have lists : (String.toList ∘ fun lexeme : Lexeme => String.ofList lexeme.text) = Lexeme.text :=
      funext fun _ => String.toList_ofList
    rw [relined, texts, String.toList_intercalate, List.map_map, newline, lists]
    exact .lines lexemes
  exact (undoes lexemes _ prints).1.trans same

/-- A slash between comments, a string that is left open and holds the beginning of a comment, and
words that begin with a keyword and with digits. -/
theorem ofSource_undoes_printing_slashes :
    ∃ lexemes source, source = "do //x\n/ /*\"*/\"/*\n007\tdo7" ∧
      Prints lexemes source.toList ∧
      lexemes.map Lexeme.text = ["do".toList, ['/'], ['"', '/', '*'], "007".toList, "do7".toList] ∧
      (tokens (ofSource source)).map Token.face = lexemes.map Lexeme.face ∧
      ReportsOpen lexemes (warnings (ofSource source)) := by
  have named : ∀ word : Keyword, word.text.toList ≠ ['d', 'o', '7'] := by
    intro word
    cases word <;> decide
  let first : Lexeme := .keyword .kwDo
  let second : Lexeme := .symbol .slash
  let third : Lexeme := .openString ['/', '*'] (by decide) (by decide)
  let fourth : Lexeme := .integer ['0', '0', '7'] (by decide) (List.all_eq_true.1 rfl)
  let last : Lexeme := .identifier 'd' ['o', '7'] rfl (List.all_eq_true.1 rfl) named
  have lineComment : Space ['/', '/', 'x', '\n'] := @Space.lineComment ['x'] [] (by decide) .nothing
  have blockComment : Space ['/', '*', '"', '*', '/'] :=
    @Space.blockComment ['"'] [] (by decide) .nothing
  have prints :
      Prints [first, second, third, fourth, last] "do //x\n/ /*\"*/\"/*\n007\tdo7".toList :=
    .more first (show Piece.isBlank ' ' = true from rfl) nofun lineComment <|
    .more second (show Piece.isBlank ' ' = true from rfl) nofun blockComment <|
    .more third (show Piece.isBlank '\n' = true from rfl) (fun _ => rfl) .nothing <|
    .more fourth (show Piece.isBlank '\t' = true from rfl) nofun .nothing <| .last last
  exact ⟨_, _, rfl, prints, rfl, ofSource_undoes_printing.1 _ _ prints⟩

end Finding

end Jack
