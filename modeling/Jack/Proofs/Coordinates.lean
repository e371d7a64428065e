import Jack.Proofs.Checked.Scanner
import Mathlib.Data.List.DropRight

namespace Jack

/-- What a text holds behind its last newline. -/
def lastLine (text : List Char) : List Char :=
  text.rtakeWhile (· != '\n')

/-- The place behind a text, counted from the characters in it. -/
def Position.behind (before : List Char) : Position where
  offset := (String.ofList before).utf8ByteSize
  line := 1 + before.count '\n'
  column := 1 + (lastLine before).length

/-- Going through a text character by character leads to the place that is counted. -/
theorem Position.after_start (before : List Char) :
    Position.start.after before = .behind before := by
  induction before using List.reverseRecOn with
  | nil => rfl
  | append_singleton before c ih =>
    have size : (String.ofList (before ++ [c])).utf8ByteSize =
        (String.ofList before).utf8ByteSize + c.utf8Size := by
      rw [String.ofList_append, String.utf8ByteSize_append, ← String.singleton_eq_ofList,
        String.utf8ByteSize_singleton]
    have step : (Position.behind before).after [c] = (Position.behind before).next c := rfl
    rw [Position.after_append, ih, step]
    by_cases isBreak : c = '\n'
    · subst isBreak
      have line : lastLine (before ++ ['\n']) = [] := List.rtakeWhile_concat_neg _ _ _ (by decide)
      simp only [next, if_pos, behind, size, line, List.count_append, List.count_singleton_self,
        List.length_nil, Nat.add_assoc]
    · have line : lastLine (before ++ [c]) = lastLine before ++ [c] :=
        List.rtakeWhile_concat_pos _ _ _ (by simpa using isBreak)
      have count : [c].count '\n' = 0 := List.count_eq_zero.2 (by simpa using Ne.symm isBreak)
      simp only [next, if_neg isBreak, behind, size, line, List.count_append, count,
        List.length_append, List.length_singleton, Nat.add_assoc, Nat.add_zero]

theorem Position.behind_append (before text : List Char) :
    (behind before).after text = behind (before ++ text) := by
  rw [← after_start, ← after_append, after_start]

/-- Lines and columns are counted from one, and there are no more of them than bytes. -/
theorem Position.behind_le (before : List Char) :
    (behind before).line ≤ (String.ofList before).utf8ByteSize + 1 ∧
      (behind before).column ≤ (String.ofList before).utf8ByteSize + 1 := by
  have counts := @le_offset .start before (Nat.le_refl 1) (Nat.le_refl 1)
  rwa [after_start] at counts

/-- No token goes over the end of a line. -/
theorem Piece.Reads.inLine {piece : Piece} {kind : Token.Kind} {literal : Option Literal}
    {rest : List Char} (reads : piece.Reads kind literal) (fits : piece.Fits rest) :
    '\n' ∉ piece.text := by
  cases reads with
  | keyword | identifier => exact notMem_of_passes fits.2.1 rfl
  | integer | largeInteger => exact notMem_of_passes fits.2.1 rfl
  | closedString body => simpa [text] using fits.2
  | openString body => simpa [text] using fits.2.1
  | symbol mark => cases mark <;> decide

/-- A token behind a part of its source, on one line of it and at the columns that are counted. -/
structure Token.StandsBehind (token : Token) (before source : String) : Prop where
  whole : ∃ behind, source = before ++ token.lexeme ++ behind
  index : token.span.index.toNat = before.utf8ByteSize
  size : token.span.size.toNat = token.lexeme.utf8ByteSize
  line : token.line = 1 + before.toList.count '\n'
  startColumn : token.startColumn = 1 + (lastLine before.toList).length
  /-- The last column is that of the last character. -/
  endColumn : token.endColumn + 1 = token.startColumn + token.lexeme.length
  inLine : '\n' ∉ token.lexeme.toList
  /-- All of them are numbers of 32 bits. -/
  words : token.line < 2 ^ 32 ∧ token.startColumn ≤ token.endColumn ∧ token.endColumn < 2 ^ 32

/-- How far a source can be read from left to right: a part of it, and the text that is left. -/
inductive ReadTo (source : List Char) : List Char → List Char → Prop
  | start : ReadTo source [] source
  | further {before rest : List Char} {piece : Piece}
      (read : ReadTo source before (piece.text ++ rest)) (fits : piece.Fits rest) :
      ReadTo source (before ++ piece.text) rest

/-- What a warning is about, with the line and the column that are counted: a character that starts
no piece, a string without its last quote, and a comment that does not end. -/
inductive Warning.StandsIn (source : List Char) : Warning → Prop
  | strayCharacter {before rest : List Char} {c : Char} (read : ReadTo source before (c :: rest))
      (fits : (Piece.stray c).Fits rest) :
      StandsIn source (.strayCharacter c (1 + before.count '\n') (1 + (lastLine before).length))
  | openString {before body rest : List Char} (read : ReadTo source before ('"' :: body ++ rest))
      (fits : (Piece.openString body).Fits rest) :
      StandsIn source (.openString (1 + before.count '\n') (1 + (lastLine before).length))
  | openComment {before body : List Char} (read : ReadTo source before ('/' :: '*' :: body))
      (fits : (Piece.openComment body).Fits []) :
      StandsIn source (.openComment (1 + before.count '\n') (1 + (lastLine before).length))

section Places

variable {source before rest : List Char} {piece : Piece} {warning : Warning}

theorem ReadTo.whole (read : ReadTo source before rest) : source = before ++ rest := by
  induction read with
  | start => rfl
  | further _ _ ih => rw [ih, List.append_assoc]

/-- A piece that is read is reported at the place where it stands. -/
theorem ReadTo.standsIn (read : ReadTo source before (piece.text ++ rest)) (fits : piece.Fits rest)
    (reported : warning ∈ piece.warning? (.behind before)) : warning.StandsIn source := by
  cases piece with
  | stray c =>
    obtain rfl := Option.some.inj reported
    exact .strayCharacter read fits
  | openString body =>
    obtain rfl := Option.some.inj reported
    exact .openString read fits
  | openComment body =>
    obtain rfl := Option.some.inj reported
    obtain ⟨never, rfl⟩ := fits
    rw [List.append_nil] at read
    exact .openComment read ⟨never, rfl⟩
  | _ => cases reported

/-- What is found in the text that is left is found in the source. -/
theorem ReadTo.found (read : ReadTo source before rest) :
    ∃ earlier, Finding.ofPieces .start (Piece.cut source) =
      earlier ++ Finding.ofPieces (.behind before) (Piece.cut rest) := by
  induction read with
  | start => exact ⟨[], rfl⟩
  | @further before rest piece _ fits ih =>
    obtain ⟨earlier, found⟩ := ih
    refine ⟨earlier ++ Finding.ofPiece (.behind before) piece, ?_⟩
    rw [found, Piece.cut_append fits, Finding.ofPieces_cons, Position.behind_append,
      List.append_assoc]

theorem ReadTo.reports (read : ReadTo source before (piece.text ++ rest)) (fits : piece.Fits rest)
    (reported : .warning warning ∈ Finding.ofPiece (.behind before) piece) :
    .warning warning ∈ Finding.ofPieces .start (Piece.cut source) := by
  obtain ⟨earlier, found⟩ := read.found
  rw [found, Piece.cut_append fits, Finding.ofPieces_cons]
  exact List.mem_append_right _ (List.mem_append_left _ reported)

/-- Whatever a warning can be about is reported. -/
theorem Warning.StandsIn.reported {source : String} (stands : warning.StandsIn source.toList) :
    warning ∈ Finding.warnings (Finding.ofSource source) := by
  refine List.mem_filterMap.2 ⟨.warning warning, ?_, rfl⟩
  cases stands with
  | @strayCharacter before rest c read fits =>
    exact @ReadTo.reports _ _ _ (.stray c) _ read fits List.mem_cons_self
  | @openString before body rest read fits =>
    exact @ReadTo.reports _ _ _ (.openString body) _ read fits List.mem_cons_self
  | @openComment before body read fits =>
    rw [← List.append_nil ('/' :: '*' :: body)] at read
    exact @ReadTo.reports _ _ _ (.openComment body) _ read fits List.mem_cons_self

/-- A token that is read behind a text stands there. -/
theorem Piece.Reads.standsBehind {kind : Token.Kind} {literal : Option Literal} {source : String}
    (reads : piece.Reads kind literal) (fits : piece.Fits rest)
    (whole : source.toList = before ++ (piece.text ++ rest))
    (short : source.utf8ByteSize < 2 ^ 32) :
    (Token.at (.behind before) kind literal piece.text).StandsBehind (String.ofList before)
      source := by
  have isSource : source = String.ofList before ++ String.ofList piece.text ++
      String.ofList rest := by
    rw [← source.ofList_toList, whole, String.ofList_append, String.ofList_append,
      String.append_assoc]
  have total : source.utf8ByteSize = (String.ofList before).utf8ByteSize +
      (String.ofList piece.text).utf8ByteSize + (String.ofList rest).utf8ByteSize := by
    rw [isSource, String.utf8ByteSize_append, String.utf8ByteSize_append]
  have positive := Piece.utf8ByteSize_pos fits
  have inLine := reads.inLine fits
  have words : UInt32.size = 2 ^ 32 := rfl
  obtain ⟨line, -⟩ := Position.behind_le before
  -- The column behind the token is one of the text that ends with it.
  obtain ⟨-, column⟩ := Position.behind_le (before ++ piece.text)
  have along := (Position.after_of_inLine (fun c member same => inLine (same ▸ member))
    (.behind before)).2
  rw [← Position.behind_append, along, String.ofList_append, String.utf8ByteSize_append] at column
  have inhabited : 0 < piece.text.length := by
    refine List.length_pos_iff.2 fun none => ?_
    rw [none] at positive
    exact absurd positive (by decide)
  have start : 1 ≤ (Position.behind before).column := Nat.le_add_right 1 _
  constructor
  · exact ⟨String.ofList rest, isSource⟩
  · exact @UInt32.toNat_ofNat_of_lt' (String.ofList before).utf8ByteSize (by omega)
  · exact UInt32.toNat_ofNat_of_lt' (by omega)
  · rw [String.toList_ofList]
    rfl
  · rw [String.toList_ofList]
    rfl
  · rw [Token.at, String.length_ofList]
    dsimp only
    omega
  · rw [Token.at, String.toList_ofList]
    exact inLine
  · simp only [Token.at]
    omega

end Places

/-- What is read behind a text has the line and the columns that are counted in the whole. -/
theorem Scans.coordinates {place : Position} {text before : List Char} {tokens : List Token}
    {warnings : List Warning} {source : String} (scans : Scans place text tokens warnings)
    (isPlace : place = .behind before) (read : ReadTo source.toList before text)
    (short : source.utf8ByteSize < 2 ^ 32) :
    (∀ token ∈ tokens, ∃ before, token.StandsBehind before source) ∧
      ∀ warning ∈ warnings, warning.StandsIn source.toList := by
  -- Each piece goes over to the part that has been read.
  induction scans generalizing before with
  | nothing place =>
    exact ⟨fun _ member => absurd member List.not_mem_nil,
      fun _ member => absurd member List.not_mem_nil⟩
  | @skip place piece rest tokens warnings skipped fits further ih =>
    subst isPlace
    obtain ⟨each, reports⟩ := ih (Position.behind_append before piece.text) (read.further fits)
    exact ⟨each, List.forall_mem_append.2
      ⟨fun warning own => read.standsIn fits (Option.mem_toList.1 own), reports⟩⟩
  | @token place piece kind literal rest tokens warnings reads fits further ih =>
    subst isPlace
    obtain ⟨each, reports⟩ := ih (Position.behind_append before piece.text) (read.further fits)
    exact ⟨List.forall_mem_cons.2 ⟨⟨_, reads.standsBehind fits read.whole short⟩, each⟩,
      List.forall_mem_append.2
        ⟨fun warning own => read.standsIn fits (Option.mem_toList.1 own), reports⟩⟩

/-- Every token of a source that is short enough has the line and the columns that are counted, and
the warnings are those that have the counted ones as well. -/
theorem Finding.ofSource_coordinates {source : String} (short : source.utf8ByteSize < 2 ^ 32) :
    (∀ token ∈ tokens (ofSource source), ∃ before, token.StandsBehind before source) ∧
      ∀ warning, warning ∈ warnings (ofSource source) ↔ warning.StandsIn source.toList := by
  have isStart : Position.start = .behind [] := rfl
  obtain ⟨each, reports⟩ :=
    (Scans.of_cut .start source.toList).coordinates isStart .start short
  exact ⟨each, fun warning => ⟨reports warning, Warning.StandsIn.reported⟩⟩

/-- Tokens behind a character of two bytes, behind a comment of two lines and behind another token,
and a string and a comment that do not end. -/
def raggedSource : String :=
  "é let\n/* \n*/ x \"éa\n\n/* y"

theorem Finding.ofSource_coordinates_ragged :
    raggedSource.utf8ByteSize < 2 ^ 32 ∧ ∃ tokens warnings,
      (Finding.tokens (ofSource raggedSource) = tokens ∧
        Finding.warnings (ofSource raggedSource) = warnings) ∧
      (∀ token ∈ tokens, ∃ before, token.StandsBehind before raggedSource) ∧
      (∀ warning, warning ∈ warnings ↔ warning.StandsIn raggedSource.toList) ∧
      tokens.map (fun token => (token.lexeme, token.line, token.startColumn, token.endColumn)) =
        [("let", 1, 3, 5), ("x", 3, 4, 4), ("\"éa", 3, 6, 8)] ∧
      warnings = [.strayCharacter 'é' 1 1, .openString 3 6, .openComment 5 1] := by
  have short : raggedSource.utf8ByteSize < 2 ^ 32 := by decide +kernel
  obtain ⟨each, reports⟩ := ofSource_coordinates short
  exact ⟨short, _, _, ⟨rfl, rfl⟩, each, reports, by decide +kernel, by decide +kernel⟩

end Jack
