import Jack.Proofs.Assembly
import Jack.Proofs.Layout
import Jack.Token.Document

namespace Jack

/-- The four characters that belong to the marks of a document. -/
def isMarkup (c : Char) : Bool :=
  c == '<' || c == '>' || c == '"' || c == '&'

/-- How these characters stand in a text. -/
def markupNames : List String :=
  ["&lt;", "&gt;", "&quot;", "&amp;"]

/-- A text in a document, in which these characters stand by their names only. -/
inductive Escaped : List Char → Prop
  | nothing : Escaped []
  | plain {c : Char} {more : List Char} (isPlain : isMarkup c = false) (further : Escaped more) :
      Escaped (c :: more)
  | named {name : String} {more : List Char} (isName : name ∈ markupNames)
      (further : Escaped more) : Escaped (name.toList ++ more)

/-- The text that a text in a document stands for. -/
def unescape? : List Char → Option (List Char)
  | [] => some []
  | '&' :: 'l' :: 't' :: ';' :: rest => (unescape? rest).map ('<' :: ·)
  | '&' :: 'g' :: 't' :: ';' :: rest => (unescape? rest).map ('>' :: ·)
  | '&' :: 'q' :: 'u' :: 'o' :: 't' :: ';' :: rest => (unescape? rest).map ('"' :: ·)
  | '&' :: 'a' :: 'm' :: 'p' :: ';' :: rest => (unescape? rest).map ('&' :: ·)
  | c :: rest => if isMarkup c then none else (unescape? rest).map (c :: ·)

/-- A line of a document with a text between the tags of a category. -/
def tagged (category text : String) : String :=
  "<" ++ category ++ ">" ++ text ++ "</" ++ category ++ ">"

/-- The category and the text that a line of a document tells. -/
def readTagged? (line : String) : Option (String × String) :=
  let behind := line.toList.drop 1
  let category := String.ofList (behind.takeWhile (· != '>'))
  let text := ((behind.dropWhile (· != '>')).drop 1).takeWhile (· != '<')
  if tagged category (String.ofList text) = line then
    (unescape? text).map fun text => (category, String.ofList text)
  else none

namespace Token

variable {c : Char} {text : List Char}

/-- A character of the markup is written by its name, and any other as it is. -/
theorem escapeChar_cases (c : Char) :
    (isMarkup c = true ∧ ∃ name ∈ markupNames, escapeChar c = name.toList) ∨
      isMarkup c = false ∧ escapeChar c = [c] := by
  unfold escapeChar
  split
  · exact .inl ⟨rfl, "&lt;", by decide, rfl⟩
  · exact .inl ⟨rfl, "&gt;", by decide, rfl⟩
  · exact .inl ⟨rfl, "&quot;", by decide, rfl⟩
  · exact .inl ⟨rfl, "&amp;", by decide, rfl⟩
  · rename_i notLess notGreater notQuote notAmp
    refine .inr ⟨?_, rfl⟩
    simp only [isMarkup, Bool.or_eq_false_iff, beq_eq_false_iff_ne]
    exact ⟨⟨⟨notLess, notGreater⟩, notQuote⟩, notAmp⟩

theorem unescape?_plain (isPlain : isMarkup c = false) (rest : List Char) :
    unescape? (c :: rest) = (unescape? rest).map (c :: ·) := by
  have other : c ≠ '&' := by
    rintro rfl
    cases isPlain
  rw [unescape?, if_neg (by rw [isPlain]; exact Bool.false_ne_true)]
  all_goals
    intros
    contradiction

theorem unescape?_escapeChar (c : Char) (rest : List Char) :
    unescape? (escapeChar c ++ rest) = (unescape? rest).map (c :: ·) := by
  obtain ⟨marks, -⟩ | ⟨isPlain, same⟩ := escapeChar_cases c
  · have isOne : c = '<' ∨ c = '>' ∨ c = '"' ∨ c = '&' := by
      simpa [isMarkup, or_assoc] using marks
    obtain rfl | rfl | rfl | rfl := isOne <;> rfl
  · rw [same]
    exact unescape?_plain isPlain rest

/-- What is written by names is read back. -/
theorem unescape?_escape (text : String) : unescape? (escape text).toList = some text.toList := by
  rw [escape, String.toList_ofList]
  induction text.toList with
  | nil => rfl
  | cons c text ih => rw [List.flatMap_cons, unescape?_escapeChar, ih, Option.map_some]

theorem escaped_escape (text : String) : Escaped (escape text).toList := by
  rw [escape, String.toList_ofList]
  induction text.toList with
  | nil => exact .nothing
  | cons c text ih =>
    rw [List.flatMap_cons]
    obtain ⟨-, name, isName, same⟩ | ⟨isPlain, same⟩ := escapeChar_cases c
    · rw [same]
      exact .named isName ih
    · rw [same]
      exact .plain isPlain ih

/-- A text without characters of the markup is written as it is. -/
theorem escape_eq_self {text : String} (isPlain : ∀ c ∈ text.toList, isMarkup c = false) :
    escape text = text := by
  have each : ∀ c ∈ text.toList, escapeChar c = [c] := by
    intro c member
    obtain ⟨marks, -⟩ | ⟨-, same⟩ := escapeChar_cases c
    · rw [isPlain c member] at marks
      cases marks
    · exact same
  rw [escape, List.flatMap_congr each, List.flatMap_singleton', String.ofList_toList]

theorem newline_notMem_escape {text : String} (inLine : '\n' ∉ text.toList) :
    '\n' ∉ (escape text).toList := by
  rw [escape, String.toList_ofList, List.mem_flatMap]
  rintro ⟨c, member, isBreak⟩
  obtain ⟨-, name, isName, same⟩ | ⟨-, same⟩ := escapeChar_cases c
  · have noBreak : ∀ name ∈ markupNames, '\n' ∉ name.toList := by decide
    exact noBreak name isName (same ▸ isBreak)
  · rw [same, List.mem_singleton] at isBreak
    exact inLine (isBreak ▸ member)

end Token

/-- No tag begins in a text between tags. -/
theorem Escaped.notMem {text : List Char} (escaped : Escaped text) : '<' ∉ text := by
  induction escaped with
  | nothing => exact List.not_mem_nil
  | @plain c more isPlain _ ih =>
    refine List.not_mem_cons_of_ne_of_not_mem ?_ ih
    rintro rfl
    cases isPlain
  | @named name more isName _ ih =>
    have noTag : ∀ name ∈ markupNames, '<' ∉ name.toList := by decide
    exact List.mem_append.not.2 (not_or.2 ⟨noTag name isName, ih⟩)

/-- A line is read as what it was put together from. -/
theorem readTagged?_tagged {category text value : String} (isTag : '>' ∉ category.toList)
    (escaped : Escaped text.toList) (stands : unescape? text.toList = some value.toList) :
    readTagged? (tagged category text) = some (category, value) := by
  have passes {run : List Char} {mark : Char} (noMark : mark ∉ run) :
      ∀ c ∈ run, (c != mark) = true :=
    fun c member => bne_iff_ne.2 fun same => noMark (same ▸ member)
  have stops (mark : Char) (rest : List Char) : ∀ c ∈ (mark :: rest).head?, (c != mark) = false :=
    fun c isHead => by rw [Option.some.inj isHead, bne_self_eq_false]
  have spelt : (tagged category text).toList.drop 1 = category.toList ++ '>' :: (text.toList ++
      '<' :: '/' :: (category.toList ++ ['>'])) := by
    simp [tagged]
  rw [readTagged?, spelt, Piece.takeWhile_run (passes isTag) (stops '>' _),
    Piece.dropWhile_run (passes isTag) (stops '>' _), List.drop_one, List.tail_cons,
    Piece.takeWhile_run (passes escaped.notMem) (stops '<' _), String.ofList_toList,
    String.ofList_toList, if_pos rfl, stands, Option.map_some, String.ofList_toList]

/-- What a document tells of a token: of a number its value, where this fits into a word, of a
string its value, and of every other token its text. -/
def Token.told (token : Token) : String :=
  match token.kind, token.literal with
  | .integer, _ =>
    let value := Nat.ofDigitChars 10 token.lexeme.toList 0
    if value ≤ 65535 then value.repr else token.lexeme
  | .string, some (.text value) => value
  | _, _ => token.lexeme

namespace Lexeme

variable {token other : Token} {lexeme second : Lexeme}

/-- What a document tells of a lexeme. -/
def told : Lexeme → String
  | integer digits .. =>
    if Nat.ofDigitChars 10 digits 0 ≤ 65535 then (Nat.ofDigitChars 10 digits 0).repr
    else String.ofList digits
  | closedString body .. | openString body .. => String.ofList body
  | lexeme => String.ofList lexeme.text

theorem isMarkup_of_isDigit {c : Char} (isDigit : c.isDigit = true) : isMarkup c = false := by
  have differs (mark : Char) (noDigit : mark.isDigit = false) : (c == mark) = false := by
    refine beq_eq_false_iff_ne.2 fun same => ?_
    rw [same, noDigit] at isDigit
    cases isDigit
  rw [isMarkup, differs '<' rfl, differs '>' rfl, differs '"' rfl, differs '&' rfl]
  rfl

theorem isDigit_of_mem_repr {value : Nat} {c : Char} (member : c ∈ value.repr.toList) :
    c.isDigit = true := by
  rw [Nat.toList_repr] at member
  exact Nat.isDigit_of_mem_toDigits (by decide) (Nat.le_refl 10) member

/-- What a document tells of a token, and what stands between the tags for it. -/
theorem told_eq (isFace : lexeme.face = token.face) :
    token.told = lexeme.told ∧ token.documentText = Token.escape lexeme.told := by
  obtain ⟨kind, text, literal, span, line, startColumn, endColumn⟩ := token
  obtain ⟨rfl, behind⟩ := Prod.ext_iff.1 isFace
  obtain ⟨rfl, rfl⟩ := Prod.ext_iff.1 behind
  cases lexeme with
  | keyword | symbol | identifier | closedString | openString => exact ⟨rfl, rfl⟩
  | integer digits inhabited isNumber =>
    by_cases small : Nat.ofDigitChars 10 digits 0 ≤ 65535
    · have plain : Token.escape (Nat.ofDigitChars 10 digits 0).repr =
          (Nat.ofDigitChars 10 digits 0).repr :=
        Token.escape_eq_self fun c member => isMarkup_of_isDigit (isDigit_of_mem_repr member)
      simp [Token.told, Token.documentText, face, kind, literal, text, told, small, plain, toString]
    · simp [Token.told, Token.documentText, face, kind, literal, text, told, small]

theorem newline_notMem_told (lexeme : Lexeme) : '\n' ∉ lexeme.told.toList := by
  have inRun {run : List Char} {test : Char → Bool} (passes : ∀ c ∈ run, test c = true)
      (fails : test '\n' = false) : '\n' ∉ (String.ofList run).toList := by
    rw [String.toList_ofList]
    exact Piece.notMem_of_passes passes fails
  cases lexeme with
  | keyword word => exact inRun (isWord_keyword word).2 rfl
  | symbol mark => cases mark <;> decide
  | identifier first more isFirst isName =>
    have isChar : Piece.isWordChar first = true := by rw [Piece.isWordChar, isFirst, Bool.true_or]
    exact inRun (List.forall_mem_cons.2 ⟨isChar, isName⟩) rfl
  | integer digits inhabited isNumber =>
    rw [told]
    split
    · intro member
      exact absurd (isDigit_of_mem_repr member) (by decide)
    · exact inRun isNumber rfl
  | closedString body _ inLine | openString body _ inLine =>
    rw [told, String.toList_ofList]
    exact inLine

/-- A number keeps its value, whether this or the number itself is told. -/
theorem value_told (digits : List Char) (inhabited : digits ≠ [])
    (isNumber : ∀ c ∈ digits, c.isDigit = true) :
    Nat.ofDigitChars 10 (integer digits inhabited isNumber).told.toList 0 =
      Nat.ofDigitChars 10 digits 0 := by
  rw [told]
  split
  · rw [Nat.toList_repr, Nat.ofDigitChars_ten_toDigits]
  · rw [String.toList_ofList]

/-- Two lexemes of which a document tells the same are the same, apart from how constants are
written. -/
theorem same_of_told (category : lexeme.kind.category = second.kind.category)
    (same : lexeme.told = second.told) :
    second.kind = lexeme.kind ∧ second.literal = lexeme.literal ∧
      (lexeme.kind.isConstant = false → second.text = lexeme.text) := by
  have body {first other : List Char} (same : String.ofList first = String.ofList other) :
      other = first := by
    have lists := congrArg String.toList same
    rwa [String.toList_ofList, String.toList_ofList, eq_comm] at lists
  cases lexeme with
  | keyword word =>
    cases second with
    | keyword other =>
      have spelt : other.text = word.text := String.toList_injective (body same)
      have words := Keyword.ofText?_text other
      rw [spelt, Keyword.ofText?_text, Option.some.injEq] at words
      subst words
      exact ⟨rfl, rfl, fun _ => rfl⟩
    | _ => simp [kind, Token.Kind.category] at category
  | symbol mark =>
    cases second with
    | symbol other =>
      have spelt : other.char = mark.char := List.singleton_inj.1 (body same)
      have marks := Symbol.ofChar?_char other
      rw [spelt, Symbol.ofChar?_char, Option.some.injEq] at marks
      subst marks
      exact ⟨rfl, rfl, fun _ => rfl⟩
    | _ => simp [kind, Token.Kind.category] at category
  | identifier first more =>
    cases second with
    | identifier => exact ⟨rfl, rfl, fun _ => body same⟩
    | _ => simp [kind, Token.Kind.category] at category
  | integer digits inhabited isNumber =>
    cases second with
    | integer others nonempty isOther =>
      have values := value_told digits inhabited isNumber
      rw [same, value_told] at values
      exact ⟨rfl, by rw [literal, literal, values], Bool.noConfusion⟩
    | _ => simp [kind, Token.Kind.category] at category
  | closedString | openString =>
    cases second with
    | closedString | openString =>
      exact ⟨rfl, congrArg (some ∘ Literal.text) same.symm, Bool.noConfusion⟩
    | _ => simp [kind, Token.Kind.category] at category

end Lexeme

/-- A line that tells a token: its category in the tags, and its text between them. -/
structure Token.ToldBy (token : Token) (line : String) : Prop where
  spelt : ∃ text, line = tagged token.kind.category text ∧ Escaped text.toList
  read : readTagged? line = some (token.kind.category, token.told)

/-- A document with one line for each token between those of its own tags. -/
structure Documents (tokens : List Token) (document : String) : Prop where
  /-- Every line ends with a newline. -/
  whole : String.join ((textLines document).map (· ++ "\n")) = document
  counted : (textLines document).length = tokens.length + 2
  lines : ∃ inner, textLines document = "<tokens>" :: (inner ++ ["</tokens>"]) ∧
    List.Forall₂ Token.ToldBy tokens inner

namespace Token

variable {token other : Token} {tokens : List Token}

/-- A document is put together from its lines. -/
theorem document_eq (tokens : List Token) :
    document tokens = String.join (("<tokens>" ::
      (tokens.map (fun token => tagged token.kind.category token.documentText) ++
        ["</tokens>"])).map (· ++ "\n")) := by
  have line (token : Token) :
      token.documentLine = tagged token.kind.category token.documentText ++ "\n" := by
    simp [documentLine, tagged, toString, String.append_assoc]
  have onto (text : String) : tokens.foldl (fun text token => text ++ token.documentLine) text =
      text ++ String.join ((tokens.map fun token =>
        tagged token.kind.category token.documentText).map (· ++ "\n")) := by
    induction tokens generalizing text with
    | nil => exact String.append_empty.symm
    | cons token tokens ih =>
      rw [List.foldl_cons, ih, List.map_cons, List.map_cons, String.join_cons, line,
        String.append_assoc]
  rw [document, onto, List.map_cons, List.map_append, String.join_cons, String.join_append,
    String.append_assoc]
  rfl

/-- A token of a source is told by its line. -/
theorem toldBy_tagged {lexeme : Lexeme} (isFace : lexeme.face = token.face) :
    token.ToldBy (tagged token.kind.category token.documentText) ∧
      '\n' ∉ (tagged token.kind.category token.documentText).toList := by
  obtain ⟨told, text⟩ := lexeme.told_eq isFace
  have isTag : '>' ∉ token.kind.category.toList ∧ '\n' ∉ token.kind.category.toList := by
    cases token.kind <;> simp [Kind.category]
  have escaped := escaped_escape lexeme.told
  refine ⟨⟨⟨_, rfl, text ▸ escaped⟩, ?_⟩, ?_⟩
  · rw [text, told]
    exact readTagged?_tagged isTag.1 escaped (unescape?_escape lexeme.told)
  · have inner := newline_notMem_escape lexeme.newline_notMem_told
    rw [← text] at inner
    simp [tagged, isTag.2, inner]

end Token

/-- Both documents of tokens that are lexemes can be read. -/
theorem documents_document {tokens : List Token}
    (areLexemes : ∀ token ∈ tokens, ∃ lexeme : Lexeme, lexeme.face = token.face) :
    Documents tokens (Token.document tokens) := by
  have lines : textLines (Token.document tokens) = "<tokens>" ::
      (tokens.map (fun token => tagged token.kind.category token.documentText) ++
        ["</tokens>"]) := by
    rw [Token.document_eq]
    refine textLines_join (List.forall_mem_cons.2 ⟨by decide, List.forall_mem_append.2 ⟨?_, ?_⟩⟩)
    · refine List.forall_mem_map.2 fun token member => ?_
      obtain ⟨lexeme, isFace⟩ := areLexemes token member
      exact (Token.toldBy_tagged isFace).2
    · exact List.forall_mem_singleton.2 (by decide)
  refine ⟨?_, ?_, _, lines, ?_⟩
  · rw [lines, Token.document_eq]
  · rw [lines, List.length_cons, List.length_append, List.length_map, List.length_singleton]
  · refine List.forall₂_map_right_iff.2 (List.forall₂_same.2 fun token member => ?_)
    obtain ⟨lexeme, isFace⟩ := areLexemes token member
    exact (Token.toldBy_tagged isFace).1

theorem Token.agrees_of_told {token other : Token}
    (isLexeme : ∃ lexeme : Lexeme, lexeme.face = token.face)
    (isOther : ∃ lexeme : Lexeme, lexeme.face = other.face)
    (category : token.kind.category = other.kind.category) (told : token.told = other.told) :
    token.Agrees other := by
  obtain ⟨lexeme, isFace⟩ := isLexeme
  obtain ⟨second, isSecond⟩ := isOther
  obtain ⟨kind, behind⟩ := Prod.ext_iff.1 isFace
  obtain ⟨kindOther, behindOther⟩ := Prod.ext_iff.1 isSecond
  obtain ⟨text, literal⟩ := Prod.ext_iff.1 behind
  obtain ⟨textOther, literalOther⟩ := Prod.ext_iff.1 behindOther
  have toldSame := (lexeme.told_eq isFace).1.symm.trans (told.trans (second.told_eq isSecond).1)
  have categories : lexeme.kind.category = second.kind.category :=
    (congrArg Kind.category kind).trans (category.trans (congrArg Kind.category kindOther).symm)
  obtain ⟨sameKind, sameLiteral, sameText⟩ := Lexeme.same_of_told categories toldSame
  refine ⟨kindOther.symm.trans (sameKind.trans kind),
    literalOther.symm.trans (sameLiteral.trans literal), fun noConstant => ?_⟩
  have same := sameText ((congrArg Kind.isConstant kind).trans noConstant)
  exact textOther.symm.trans ((congrArg String.ofList same).trans text)

/-- Reading the lines of a document gives what it tells of each token. -/
theorem Token.map_readTagged? {tokens : List Token} {lines : List String}
    (told : List.Forall₂ ToldBy tokens lines) :
    lines.map readTagged? = tokens.map fun token => some (token.kind.category, token.told) := by
  induction told with
  | nil => rfl
  | cons first _ ih => rw [List.map_cons, List.map_cons, first.read, ih]

/-- Tokens with the same document agree. -/
theorem Documents.agree {tokens others : List Token} {document : String}
    (documents : Documents tokens document) (documentsOthers : Documents others document)
    (areLexemes : ∀ token ∈ tokens, ∃ lexeme : Lexeme, lexeme.face = token.face)
    (othersAre : ∀ token ∈ others, ∃ lexeme : Lexeme, lexeme.face = token.face) :
    List.Forall₂ Token.Agrees tokens others := by
  obtain ⟨lines, isLines, told⟩ := documents.lines
  obtain ⟨linesOther, isLinesOther, toldOther⟩ := documentsOthers.lines
  obtain rfl : lines = linesOther :=
    List.append_cancel_right (List.cons.inj (isLines.symm.trans isLinesOther)).2
  have same := (Token.map_readTagged? told).symm.trans (Token.map_readTagged? toldOther)
  clear told toldOther isLines isLinesOther documents documentsOthers
  induction tokens generalizing others with
  | nil =>
    obtain rfl := List.map_eq_nil_iff.1 same.symm
    exact .nil
  | cons token tokens ih =>
    obtain ⟨other, more, rfl, isSame, sameMore⟩ := List.map_eq_cons_iff.1 same.symm
    obtain ⟨isLexeme, areLexemes⟩ := List.forall_mem_cons.1 areLexemes
    obtain ⟨otherIs, moreAre⟩ := List.forall_mem_cons.1 othersAre
    obtain ⟨category, told⟩ := Prod.mk.inj (Option.some.inj isSame)
    exact .cons (Token.agrees_of_told isLexeme otherIs category.symm told.symm)
      (ih areLexemes moreAre sameMore.symm)

theorem Finding.areLexemes_ofSource (source : String) :
    ∀ token ∈ tokens (ofSource source), ∃ lexeme : Lexeme, lexeme.face = token.face := by
  intro token member
  obtain ⟨lexemes, same⟩ := (Scans.of_cut .start source.toList).exists_lexemes
  have isFace : token.face ∈ lexemes.map Lexeme.face := same ▸ List.mem_map_of_mem member
  obtain ⟨lexeme, -, isSame⟩ := List.mem_map.1 isFace
  exact ⟨lexeme, isSame⟩

/-- The document of a source tells all of its tokens. Sources with the same document have tokens
that agree, and are compiled to the same or refused behind the same. -/
theorem Finding.ofSource_documents (source : String) :
    Documents (tokens (ofSource source)) (Token.document (tokens (ofSource source))) ∧
      ∀ other : String,
        Token.document (tokens (ofSource other)) = Token.document (tokens (ofSource source)) →
          List.Forall₂ Token.Agrees (tokens (ofSource source)) (tokens (ofSource other)) ∧
          ∀ (limit : Nat) (sink : Sink),
            (Compilation.ofSource limit other sink).sink =
                (Compilation.ofSource limit source sink).sink ∧
              ResultsAgree (Compilation.Failure.Agrees (tokens (ofSource source))
                  (tokens (ofSource other)))
                (Compilation.ofSource limit source sink).result
                (Compilation.ofSource limit other sink).result := by
  have lexemes := areLexemes_ofSource source
  have documents := documents_document lexemes
  refine ⟨documents, fun other same => ?_⟩
  have lexemesOther := areLexemes_ofSource other
  have agree := documents.agree (same ▸ documents_document lexemesOther) lexemes lexemesOther
  exact ⟨agree, fun limit sink => Compilation.ofTokens_agrees limit agree sink⟩

/-- A class with a number and a string, where each of them is written in two ways. -/
def plainSource : String :=
  "class A \x7b function void f() \x7b do B.c(7, \"<&>\"); return; \x7d \x7d"

def oddSource : String :=
  "class A\x7bfunction void f()\x7bdo B.c(007,\"<&>\n);return;\x7d\x7d"

theorem Finding.ofSource_documents_odd :
    Token.document (tokens (ofSource oddSource)) =
        Token.document (tokens (ofSource plainSource)) ∧
      Documents (tokens (ofSource plainSource))
        (Token.document (tokens (ofSource plainSource))) ∧
      List.Forall₂ Token.Agrees (tokens (ofSource plainSource)) (tokens (ofSource oddSource)) ∧
      (Compilation.ofSource 1 oddSource .unlimited).sink =
        (Compilation.ofSource 1 plainSource .unlimited).sink ∧
      (tokens (ofSource oddSource)).map Token.lexeme ≠
        (tokens (ofSource plainSource)).map Token.lexeme := by
  have same : Token.document (tokens (ofSource oddSource)) =
      Token.document (tokens (ofSource plainSource)) := by
    decide +kernel
  obtain ⟨documents, others⟩ := ofSource_documents plainSource
  obtain ⟨agree, compiled⟩ := others oddSource same
  exact ⟨same, documents, agree, (compiled 1 .unlimited).1, by decide +kernel⟩

end Jack
