import Jack.Proofs.Coordinates

namespace Jack

/-- A place so many bytes and lines further. Columns are counted from the start of a line, so they
stay. -/
def Position.moved (bytes lines : Nat) (place : Position) : Position where
  offset := place.offset + bytes
  line := place.line + lines
  column := place.column

/-- A token so many bytes and lines further, with the same text on the same columns. -/
def Token.moved (bytes lines : Nat) (token : Token) : Token :=
  { token with
    span := ⟨token.span.index + bytes.toUInt32, token.span.size⟩
    line := token.line + lines }

def Warning.moved (lines : Nat) : Warning → Warning
  | .strayCharacter c line column => .strayCharacter c (line + lines) column
  | .openString line column => .openString (line + lines) column
  | .openComment line column => .openComment (line + lines) column

section Moves

variable {place : Position} {text : List Char} {tokens : List Token} {warnings : List Warning}
  (bytes lines : Nat)

theorem Position.next_moved (place : Position) (c : Char) :
    (place.moved bytes lines).next c = (place.next c).moved bytes lines := by
  unfold next
  split
  · simp only [moved, Nat.add_right_comm]
  · simp only [moved, Nat.add_right_comm]

theorem Position.after_moved (place : Position) (text : List Char) :
    (place.moved bytes lines).after text = (place.after text).moved bytes lines := by
  induction text generalizing place with
  | nil => rfl
  | cons c text ih =>
    rw [after, List.foldl_cons, next_moved]
    exact ih (place.next c)

theorem Token.at_moved (place : Position) (kind : Token.Kind) (literal : Option Literal)
    (text : List Char) :
    Token.at (place.moved bytes lines) kind literal text =
      (Token.at place kind literal text).moved bytes lines := by
  have index : (place.offset + bytes).toUInt32 = place.offset.toUInt32 + bytes.toUInt32 :=
    UInt32.ofNat_add ..
  rw [Token.at, Position.moved, index]
  rfl

theorem Piece.warning?_moved (piece : Piece) (place : Position) :
    piece.warning? (place.moved bytes lines) = (piece.warning? place).map (.moved lines) := by
  cases piece <;> rfl

/-- Reading a text from a place further on finds the same further on. -/
theorem Scans.moved (scans : Scans place text tokens warnings) :
    Scans (place.moved bytes lines) text (tokens.map (.moved bytes lines))
      (warnings.map (.moved lines)) := by
  have reported (piece : Piece) (place : Position) (warnings : List Warning) :
      ((piece.warning? place).toList ++ warnings).map (Warning.moved lines) =
        (piece.warning? (place.moved bytes lines)).toList ++ warnings.map (.moved lines) := by
    rw [List.map_append, ← Option.toList_map, Piece.warning?_moved]
  induction scans with
  | nothing place => exact .nothing _
  | skip skipped fits _ ih =>
    rw [← Position.after_moved] at ih
    rw [reported]
    exact .skip skipped fits ih
  | token reads fits _ ih =>
    rw [← Position.after_moved] at ih
    rw [reported, List.map_cons, ← Token.at_moved]
    exact .token reads fits ih

end Moves

section Ends

variable {piece : Piece} {rest : List Char}

/-- What holds of the first character of a text and of a newline holds of the first character of the
text with another line behind it. -/
theorem head_beforeLine {fact : Char → Prop} (holds : ∀ c ∈ rest.head?, fact c) (ends : fact '\n')
    (behind : List Char) : ∀ c ∈ (rest ++ '\n' :: behind).head?, fact c := by
  cases rest with
  | nil =>
    intro c isHead
    exact Option.some.inj isHead ▸ ends
  | cons d rest => exact holds

/-- A piece that is no open comment ends at a newline as it does at the end of the text. -/
theorem Piece.Fits.beforeLine (fits : piece.Fits rest)
    (closed : ∀ body, piece ≠ .openComment body) (behind : List Char) :
    piece.Fits (rest ++ '\n' :: behind) := by
  cases piece with
  | blank | blockComment | closedString | stray => exact fits
  | lineComment body => exact ⟨fits.1, head_beforeLine fits.2 rfl behind⟩
  | openComment body => exact absurd rfl (closed body)
  | word letters => exact ⟨fits.1, fits.2.1, head_beforeLine fits.2.2 rfl behind⟩
  | number digits => exact ⟨fits.1, fits.2.1, head_beforeLine fits.2.2 rfl behind⟩
  | openString body => exact ⟨fits.1, fits.2.1, head_beforeLine fits.2.2 rfl behind⟩
  | symbol mark => exact fun slash => head_beforeLine (fits slash) (by decide) behind

/-- An open comment is reported. -/
theorem Piece.closed_of_reported {place : Position} {warnings : List Warning}
    (closed : ∀ line column, .openComment line column ∉ (piece.warning? place).toList ++ warnings) :
    (∀ body, piece ≠ .openComment body) ∧
      ∀ line column, .openComment line column ∉ warnings := by
  refine ⟨?_, fun line column member => closed line column (List.mem_append_right _ member)⟩
  rintro body rfl
  exact closed place.line place.column (List.mem_append_left _ List.mem_cons_self)

/-- Reading goes on behind the end of a text that does not end in a comment. -/
theorem Scans.append_line {place : Position} {text behind : List Char}
    {tokens later : List Token} {warnings reports : List Warning}
    (scans : Scans place text tokens warnings)
    (closed : ∀ line column, .openComment line column ∉ warnings)
    (further : Scans (place.after text) ('\n' :: behind) later reports) :
    Scans place (text ++ '\n' :: behind) (tokens ++ later) (warnings ++ reports) := by
  induction scans with
  | nothing place => exact further
  | skip skipped fits _ ih =>
    obtain ⟨isClosed, others⟩ := Piece.closed_of_reported closed
    rw [Position.after_append] at further
    rw [List.append_assoc, List.append_assoc]
    exact .skip skipped (fits.beforeLine isClosed behind) (ih others further)
  | token reads fits _ ih =>
    obtain ⟨isClosed, others⟩ := Piece.closed_of_reported closed
    rw [Position.after_append] at further
    rw [List.append_assoc, List.append_assoc, List.cons_append]
    exact .token reads (fits.beforeLine isClosed behind) (ih others further)

end Ends

/-- Behind a newline a text begins as at the start, further on. -/
theorem Position.after_line (before : List Char) :
    start.after (before ++ ['\n']) =
      start.moved (1 + (String.ofList before).utf8ByteSize) (1 + before.count '\n') := by
  have size : (String.ofList (before ++ ['\n'])).utf8ByteSize =
      (String.ofList before).utf8ByteSize + 1 := by
    rw [String.ofList_append, String.utf8ByteSize_append]
    rfl
  have line : lastLine (before ++ ['\n']) = [] := List.rtakeWhile_concat_neg _ _ _ (by decide)
  rw [after_start, behind, size, line, List.count_append, List.count_singleton_self]
  simp only [moved, start, List.length_nil, Nat.zero_add, Nat.add_comm]

/-- In a text that is not too long for it, the span of a token moves without wrapping around. -/
theorem Token.Covers.index_moved {token : Token} {source : String} (covers : token.Covers source)
    {bytes : Nat} (short : source.utf8ByteSize + bytes < 2 ^ 32) (lines : Nat) :
    (token.moved bytes lines).span.index.toNat = token.span.index.toNat + bytes := by
  obtain ⟨before, behind, rfl, index, -⟩ := covers
  simp only [String.utf8ByteSize_append] at short
  have words : UInt32.size = 2 ^ 32 := rfl
  have isBytes : bytes.toUInt32.toNat = bytes := UInt32.toNat_ofNat_of_lt' (by omega)
  have sum : (token.moved bytes lines).span.index = token.span.index + bytes.toUInt32 := rfl
  rw [sum, UInt32.toNat_add, isBytes, Nat.mod_eq_of_lt (by omega)]

/-- Scanning two texts with a newline between them finds what the first holds and then what the
second holds, on the lines behind it and as many bytes further, if the first does not end inside a
comment. -/
theorem Finding.ofSource_lines {first last : String}
    (short : (first ++ "\n" ++ last).utf8ByteSize < 2 ^ 32)
    (closed : ∀ line column, .openComment line column ∉ warnings (ofSource first)) :
    tokens (ofSource (first ++ "\n" ++ last)) = tokens (ofSource first) ++
        (tokens (ofSource last)).map
          (.moved (1 + first.utf8ByteSize) (1 + first.toList.count '\n')) ∧
      warnings (ofSource (first ++ "\n" ++ last)) = warnings (ofSource first) ++
        (warnings (ofSource last)).map (.moved (1 + first.toList.count '\n')) ∧
      ∀ token ∈ tokens (ofSource last),
        (token.moved (1 + first.utf8ByteSize) (1 + first.toList.count '\n')).span.index.toNat =
          token.span.index.toNat + (1 + first.utf8ByteSize) := by
  have spelt : (first ++ "\n" ++ last).toList = first.toList ++ '\n' :: last.toList := by
    rw [String.toList_append, String.toList_append, List.append_assoc]
    rfl
  have isPlace := Position.after_line first.toList
  rw [String.ofList_toList, Position.after_append] at isPlace
  have scansLast := Scans.of_cut .start last.toList
  have moved := scansLast.moved (1 + first.utf8ByteSize) (1 + first.toList.count '\n')
  rw [← isPlace] at moved
  have behind : Scans (Position.start.after first.toList) ('\n' :: last.toList) _ _ :=
    @Scans.skip _ (.blank '\n') _ _ _ (.blank '\n') (.inr (.inr (.inr rfl))) moved
  have whole := (Scans.of_cut .start first.toList).append_line closed behind
  rw [← spelt] at whole
  obtain ⟨isTokens, isWarnings⟩ := whole.unique
  refine ⟨isTokens.symm, isWarnings.symm, fun token member => ?_⟩
  have size : (first ++ "\n" ++ last).utf8ByteSize =
      first.utf8ByteSize + 1 + last.utf8ByteSize := by
    rw [String.utf8ByteSize_append, String.utf8ByteSize_append]
    rfl
  have isLast : "" ++ String.ofList last.toList = last := by
    rw [String.empty_append, String.ofList_toList]
  obtain ⟨each, -⟩ := scansLast.spans rfl (by rw [isLast]; omega)
  rw [isLast] at each
  exact (each token member).1.index_moved (by omega) _

/-- A string that only a newline keeps from being closed in the second text, which ends inside a
comment. -/
theorem Finding.ofSource_lines_open : ∃ first last,
    first = "é /*\n*/ x \"y" ∧ last = "z\" // 7\n8 /* ?" ∧
      (first ++ "\n" ++ last).utf8ByteSize < 2 ^ 32 ∧
      (∀ line column, .openComment line column ∉ warnings (ofSource first)) ∧
      (tokens (ofSource (first ++ "\n" ++ last))).map
          (fun token => (token.lexeme, token.span.index, token.line, token.startColumn)) =
        [("x", 9, 2, 4), ("\"y", 11, 2, 6), ("z", 14, 3, 1), ("\" // 7", 15, 3, 2),
          ("8", 22, 4, 1)] ∧
      warnings (ofSource (first ++ "\n" ++ last)) =
        [.strayCharacter 'é' 1 1, .openString 2 6, .openString 3 2, .openComment 4 3] := by
  have short : ("é /*\n*/ x \"y" ++ "\n" ++ "z\" // 7\n8 /* ?").utf8ByteSize < 2 ^ 32 := by
    decide +kernel
  have reports : warnings (ofSource "é /*\n*/ x \"y") =
      [.strayCharacter 'é' 1 1, .openString 2 6] := by decide +kernel
  have closed (line column : Nat) :
      .openComment line column ∉ warnings (ofSource "é /*\n*/ x \"y") := by
    simp [reports]
  obtain ⟨isTokens, isWarnings, -⟩ := ofSource_lines short closed
  refine ⟨_, _, rfl, rfl, short, closed, ?_, ?_⟩
  · rw [isTokens]
    decide +kernel
  · rw [isWarnings]
    decide +kernel

end Jack
