import Jack.Proofs.Pieces
import Jack.Token.Finding
import Mathlib.Algebra.Group.Nat.Defs

namespace Jack

/-- The value of a run of digits, where it fits into a word. -/
theorem wordValue?_eq (digits : List Char) :
    wordValue? digits =
      if Nat.ofDigitChars 10 digits 0 ≤ 65535 then some (Nat.ofDigitChars 10 digits 0)
      else none := by
  have capped (value : Nat) :
      digits.foldl (fun value c => min (10 * value + (c.toNat - '0'.toNat)) (maxWord + 1))
          (min value (maxWord + 1)) =
        min (Nat.ofDigitChars 10 digits value) (maxWord + 1) := by
    induction digits generalizing value with
    | nil => rfl
    | cons c digits ih =>
      have next : min (10 * min value (maxWord + 1) + (c.toNat - '0'.toNat)) (maxWord + 1) =
          min (10 * value + (c.toNat - '0'.toNat)) (maxWord + 1) := by
        omega
      rw [List.foldl_cons, next, ih, Nat.ofDigitChars_cons]
  have whole : cappedValue digits = min (Nat.ofDigitChars 10 digits 0) (maxWord + 1) := capped 0
  have largest : maxWord = 65535 := rfl
  rw [wordValue?, whole, largest]
  split <;> split
  · congr 1
    omega
  · omega
  · omega
  · rfl

namespace Piece

/-- What a piece is read as if it is a token: its kind and its value. Words are keywords where they
are written as one, and only a number that fits into a word has a value. -/
inductive Reads : Piece → Token.Kind → Option Literal → Prop
  | keyword (word : Keyword) : Reads (.word word.text.toList) (.keyword word) none
  | identifier {letters : List Char} (notKeyword : ∀ word : Keyword, word.text.toList ≠ letters) :
      Reads (.word letters) .identifier none
  | integer {digits : List Char} (fits : Nat.ofDigitChars 10 digits 0 ≤ 65535) :
      Reads (.number digits) .integer (some (.number (Nat.ofDigitChars 10 digits 0)))
  | largeInteger {digits : List Char} (exceeds : 65535 < Nat.ofDigitChars 10 digits 0) :
      Reads (.number digits) .integer none
  | closedString (body : List Char) :
      Reads (.closedString body) .string (some (.text (String.ofList body)))
  | openString (body : List Char) :
      Reads (.openString body) .string (some (.text (String.ofList body)))
  | symbol (mark : Symbol) : Reads (.symbol mark) (.symbol mark) none

/-- Pieces that stand between tokens. -/
inductive Skipped : Piece → Prop
  | blank (c : Char) : Skipped (.blank c)
  | lineComment (body : List Char) : Skipped (.lineComment body)
  | blockComment (body : List Char) : Skipped (.blockComment body)
  | openComment (body : List Char) : Skipped (.openComment body)
  | stray (c : Char) : Skipped (.stray c)

/-- What a piece is reported for, with the place where it begins. -/
def warning? (place : Position) : Piece → Option Warning
  | openComment _ => some (.openComment place.line place.column)
  | openString _ => some (.openString place.line place.column)
  | stray c => some (.strayCharacter c place.line place.column)
  | _ => none

theorem skipped_or_reads (piece : Piece) :
    piece.Skipped ∨ ∃ kind literal, piece.Reads kind literal := by
  cases piece with
  | word letters =>
    by_cases isKeyword : ∃ word : Keyword, word.text.toList = letters
    · obtain ⟨word, rfl⟩ := isKeyword
      exact .inr ⟨_, _, .keyword word⟩
    · exact .inr ⟨_, _, .identifier (not_exists.1 isKeyword)⟩
  | number digits =>
    obtain fits | exceeds := Nat.lt_or_ge 65535 (Nat.ofDigitChars 10 digits 0)
    · exact .inr ⟨_, _, .largeInteger fits⟩
    · exact .inr ⟨_, _, .integer exceeds⟩
  | closedString body => exact .inr ⟨_, _, .closedString body⟩
  | openString body => exact .inr ⟨_, _, .openString body⟩
  | symbol mark => exact .inr ⟨_, _, .symbol mark⟩
  | blank c => exact .inl (.blank c)
  | lineComment body => exact .inl (.lineComment body)
  | blockComment body => exact .inl (.blockComment body)
  | openComment body => exact .inl (.openComment body)
  | stray c => exact .inl (.stray c)

theorem ofText?_eq_none {letters : List Char}
    (notKeyword : ∀ word : Keyword, word.text.toList ≠ letters) :
    Keyword.ofText? (String.ofList letters) = none := by
  refine List.find?_eq_none.2 fun word _ same => notKeyword word ?_
  rw [eq_of_beq same, String.toList_ofList]

variable {piece : Piece} {kind : Token.Kind} {literal : Option Literal}

theorem Skipped.found (skipped : piece.Skipped) (place : Position) :
    Finding.tokens (Finding.ofPiece place piece) = [] ∧
      Finding.warnings (Finding.ofPiece place piece) = (piece.warning? place).toList := by
  cases skipped <;> exact ⟨rfl, rfl⟩

theorem Reads.found (reads : piece.Reads kind literal) (place : Position) :
    Finding.tokens (Finding.ofPiece place piece) = [.at place kind literal piece.text] ∧
      Finding.warnings (Finding.ofPiece place piece) = (piece.warning? place).toList := by
  cases reads with
  | keyword word =>
    simp only [Finding.ofPiece, String.ofList_toList, Keyword.ofText?_text]
    exact ⟨rfl, rfl⟩
  | identifier notKeyword =>
    simp only [Finding.ofPiece, ofText?_eq_none notKeyword]
    exact ⟨rfl, rfl⟩
  | integer fits =>
    simp only [Finding.ofPiece, wordValue?_eq, if_pos fits]
    exact ⟨rfl, rfl⟩
  | largeInteger exceeds =>
    simp only [Finding.ofPiece, wordValue?_eq, if_neg (Nat.not_le.2 exceeds)]
    exact ⟨rfl, rfl⟩
  | closedString | openString | symbol => exact ⟨rfl, rfl⟩

end Piece

/-- Reading a text from a place on, from left to right: each piece is skipped or is a token, and it
is reported if something is wrong with it. -/
inductive Scans : Position → List Char → List Token → List Warning → Prop
  | nothing (place : Position) : Scans place [] [] []
  | skip {place : Position} {piece : Piece} {rest : List Char} {tokens : List Token}
      {warnings : List Warning} (skipped : piece.Skipped) (fits : piece.Fits rest)
      (further : Scans (place.after piece.text) rest tokens warnings) :
      Scans place (piece.text ++ rest) tokens ((piece.warning? place).toList ++ warnings)
  | token {place : Position} {piece : Piece} {kind : Token.Kind} {literal : Option Literal}
      {rest : List Char} {tokens : List Token} {warnings : List Warning}
      (reads : piece.Reads kind literal) (fits : piece.Fits rest)
      (further : Scans (place.after piece.text) rest tokens warnings) :
      Scans place (piece.text ++ rest) (.at place kind literal piece.text :: tokens)
        ((piece.warning? place).toList ++ warnings)

namespace Scans

variable {place : Position} {text : List Char} {tokens : List Token} {warnings : List Warning}

theorem found_cons (place : Position) (piece : Piece) (pieces : List Piece) :
    Finding.tokens (Finding.ofPieces place (piece :: pieces)) =
        Finding.tokens (Finding.ofPiece place piece) ++
          Finding.tokens (Finding.ofPieces (place.after piece.text) pieces) ∧
      Finding.warnings (Finding.ofPieces place (piece :: pieces)) =
        Finding.warnings (Finding.ofPiece place piece) ++
          Finding.warnings (Finding.ofPieces (place.after piece.text) pieces) := by
  rw [Finding.ofPieces_cons]
  exact ⟨List.filterMap_append, List.filterMap_append⟩

/-- Scanning reads a text in this way. -/
theorem of_cut (place : Position) (text : List Char) :
    Scans place text (Finding.tokens (Finding.ofPieces place (Piece.cut text)))
      (Finding.warnings (Finding.ofPieces place (Piece.cut text))) := by
  -- A piece may take many characters, but it takes one at least.
  induction size : text.length using Nat.strongRecOn generalizing place text with
  | ind n ih =>
    cases text with
    | nil =>
      rw [Piece.cut_nil]
      exact .nothing place
    | cons c rest =>
      have shorter := size ▸ Piece.first_length c rest
      have whole := Piece.first_text c rest
      have fits := Piece.fits_first c rest
      rcases isFirst : Piece.first c rest with ⟨piece, behind⟩
      rw [isFirst] at shorter whole fits
      have further := ih _ shorter (place.after piece.text) behind rfl
      obtain ⟨tokens, warnings⟩ := found_cons place piece (Piece.cut behind)
      rw [Piece.cut_cons, isFirst, tokens, warnings, ← whole]
      obtain skipped | ⟨kind, literal, reads⟩ := piece.skipped_or_reads
      · obtain ⟨isTokens, isWarnings⟩ := skipped.found place
        rw [isTokens, isWarnings]
        exact .skip skipped fits further
      · obtain ⟨isTokens, isWarnings⟩ := reads.found place
        rw [isTokens, isWarnings]
        exact .token reads fits further

/-- A text can be read in no other way. -/
theorem unique (scans : Scans place text tokens warnings) :
    tokens = Finding.tokens (Finding.ofPieces place (Piece.cut text)) ∧
      warnings = Finding.warnings (Finding.ofPieces place (Piece.cut text)) := by
  induction scans with
  | nothing place =>
    rw [Piece.cut_nil]
    exact ⟨rfl, rfl⟩
  | @skip place piece rest _ _ skipped fits _ ih =>
    obtain ⟨tokens, warnings⟩ := found_cons place piece (Piece.cut rest)
    obtain ⟨isTokens, isWarnings⟩ := skipped.found place
    rw [Piece.cut_append fits, tokens, warnings, isTokens, isWarnings, ← ih.1, ← ih.2]
    exact ⟨rfl, rfl⟩
  | @token place piece _ _ rest _ _ reads fits _ ih =>
    obtain ⟨tokens, warnings⟩ := found_cons place piece (Piece.cut rest)
    obtain ⟨isTokens, isWarnings⟩ := reads.found place
    rw [Piece.cut_append fits, tokens, warnings, isTokens, isWarnings, ← ih.1, ← ih.2]
    exact ⟨rfl, rfl⟩

end Scans

theorem Position.offset_after (place : Position) (text : List Char) :
    (place.after text).offset = place.offset + (String.ofList text).utf8ByteSize := by
  induction text generalizing place with
  | nil => rfl
  | cons c text ih =>
    have next : (place.next c).offset = place.offset + c.utf8Size := by
      unfold Position.next
      split <;> rfl
    have rest := ih (place.next c)
    rw [next] at rest
    rw [String.ofList_cons, String.utf8ByteSize_append, String.utf8ByteSize_singleton,
      ← Nat.add_assoc]
    exact rest

namespace Token

/-- Where the span of a token ends, in numbers that do not wrap around. -/
def stop (token : Token) : Nat :=
  token.span.index.toNat + token.span.size.toNat

/-- Whether a token stands in a source where its span says: as many bytes come before it as its
index says, and it has as many bytes as its size says. -/
def Covers (token : Token) (source : String) : Prop :=
  ∃ before behind, source = before ++ token.lexeme ++ behind ∧
    token.span.index.toNat = before.utf8ByteSize ∧
    token.span.size.toNat = token.lexeme.utf8ByteSize

end Token

namespace Span

theorem dropBytes_append {count : Nat} {before : List Char}
    (isCount : count = (String.ofList before).utf8ByteSize) (rest : List Char) :
    dropBytes count (before ++ rest) = some rest := by
  induction before generalizing count with
  | nil =>
    rw [String.ofList_nil, String.utf8ByteSize_empty] at isCount
    rw [isCount, List.nil_append, dropBytes]
  | cons c before ih =>
    have positive := c.utf8Size_pos
    rw [String.ofList_cons, String.utf8ByteSize_append, String.utf8ByteSize_singleton] at isCount
    obtain ⟨count, rfl⟩ := Nat.exists_eq_succ_of_ne_zero (show count ≠ 0 by omega)
    rw [List.cons_append, dropBytes, if_pos (by omega)]
    exact ih (by omega)

/-- What is left behind so many bytes is the end of the text behind this many. -/
theorem dropBytes_eq_some_iff {count : Nat} {text rest : List Char} :
    dropBytes count text = some rest ↔
      ∃ before, text = before ++ rest ∧ (String.ofList before).utf8ByteSize = count := by
  refine ⟨fun dropped => ?_, ?_⟩
  · fun_induction dropBytes count text with
    | case1 text => exact ⟨[], Option.some.inj dropped, String.utf8ByteSize_empty⟩
    | case2 => cases dropped
    | case3 count c text fits ih =>
      obtain ⟨before, rfl, size⟩ := ih dropped
      refine ⟨c :: before, rfl, ?_⟩
      rw [String.ofList_cons, String.utf8ByteSize_append, String.utf8ByteSize_singleton, size]
      omega
    | case4 => cases dropped
  · rintro ⟨before, rfl, rfl⟩
    exact dropBytes_append rfl rest

/-- The end of a span is its sum, unless this wraps around. Then it lies before the start. -/
theorem toNat_stop_or (span : Span) :
    span.index.toNat + span.size.toNat < 2 ^ 32 ∧
        span.stop.toNat = span.index.toNat + span.size.toNat ∧ ¬span.stop < span.index ∨
      2 ^ 32 ≤ span.index.toNat + span.size.toNat ∧ span.stop < span.index := by
  have index := span.index.toNat_lt
  have size := span.size.toNat_lt
  rw [UInt32.lt_iff_toNat_lt, stop, UInt32.toNat_add]
  omega

/-- A span has text exactly if the sum does not wrap around and if its start and its end divide the
text between characters. -/
theorem fragment?_eq_some_iff {span : Span} {text fragment : List Char} :
    span.fragment? text = some fragment ↔
      span.index.toNat + span.size.toNat < 2 ^ 32 ∧
        ∃ before behind, text = before ++ (fragment ++ behind) ∧
          (String.ofList before).utf8ByteSize = span.index.toNat ∧
          (String.ofList fragment).utf8ByteSize = span.size.toNat := by
  rw [fragment?]
  obtain ⟨short, stop, inOrder⟩ | ⟨wraps, backwards⟩ := span.toNat_stop_or
  · rw [if_neg inOrder, stop, Nat.add_sub_cancel_left]
    simp only [Option.bind_eq_bind, Option.bind_eq_some_iff, dropBytes_eq_some_iff, short, true_and]
    constructor
    · rintro ⟨tail, ⟨before, rfl, index⟩, rest, ⟨own, rfl, size⟩, isFragment⟩
      rw [List.length_append, Nat.add_sub_cancel, List.take_left] at isFragment
      obtain rfl := Option.some.inj isFragment
      exact ⟨before, rest, rfl, index, size⟩
    · rintro ⟨before, behind, rfl, index, size⟩
      refine ⟨_, ⟨before, rfl, index⟩, behind, ⟨fragment, rfl, size⟩, ?_⟩
      rw [List.length_append, Nat.add_sub_cancel, List.take_left]
      rfl
  · rw [if_pos backwards]
    exact ⟨nofun, fun parts => absurd parts.1 (Nat.not_lt.2 wraps)⟩

end Span

/-- The text under the span of such a token is its lexeme. -/
theorem Token.Covers.fragment? {token : Token} {source : String} (covers : token.Covers source)
    (short : source.utf8ByteSize < 2 ^ 32) :
    token.span.fragment? source.toList = some token.lexeme.toList := by
  obtain ⟨before, behind, rfl, index, size⟩ := covers
  simp only [String.utf8ByteSize_append] at short
  refine Span.fragment?_eq_some_iff.2 ⟨by omega, before.toList, behind.toList, ?_, ?_, ?_⟩
  · rw [String.toList_append, String.toList_append, List.append_assoc]
  · rw [String.ofList_toList, index]
  · rw [String.ofList_toList, size]

/-- A piece that fits holds a character. -/
theorem Piece.utf8ByteSize_pos {piece : Piece} {rest : List Char} (fits : piece.Fits rest) :
    0 < (String.ofList piece.text).utf8ByteSize := by
  have inhabited : piece.text ≠ [] := by
    obtain ⟨c, more, spelt, isFirst⟩ := Piece.first_of_fits fits
    have notNil := Piece.first_ne_nil c more
    rwa [isFirst] at notNil
  obtain ⟨c, more, spelt⟩ := List.exists_cons_of_ne_nil inhabited
  have positive := c.utf8Size_pos
  rw [spelt, String.ofList_cons, String.utf8ByteSize_append, String.utf8ByteSize_singleton]
  omega

/-- The spans of tokens that are read behind a text lie behind it, one after the other. -/
theorem Scans.spans {place : Position} {text : List Char} {tokens : List Token}
    {warnings : List Warning} (scans : Scans place text tokens warnings) {before : String}
    (isPlace : place.offset = before.utf8ByteSize)
    (short : (before ++ String.ofList text).utf8ByteSize < 2 ^ 32) :
    (∀ token ∈ tokens, token.Covers (before ++ String.ofList text) ∧
      place.offset ≤ token.span.index.toNat ∧ 0 < token.span.size.toNat) ∧
    tokens.Pairwise fun first second => first.stop ≤ second.span.index.toNat := by
  -- Each piece goes over to the text that has been read, whose size is the offset of the place.
  induction scans generalizing before with
  | nothing place => exact ⟨fun token member => absurd member List.not_mem_nil, .nil⟩
  | @skip place piece rest tokens warnings skipped fits further ih =>
    have behind : (place.after piece.text).offset =
        (before ++ String.ofList piece.text).utf8ByteSize := by
      rw [Position.offset_after, isPlace, String.utf8ByteSize_append]
    rw [String.ofList_append, ← String.append_assoc] at short ⊢
    obtain ⟨each, ordered⟩ := ih behind short
    refine ⟨fun token member => ?_, ordered⟩
    obtain ⟨covers, later, positive⟩ := each token member
    rw [Position.offset_after] at later
    exact ⟨covers, by omega, positive⟩
  | @token place piece kind literal rest tokens warnings reads fits further ih =>
    have behind : (place.after piece.text).offset =
        (before ++ String.ofList piece.text).utf8ByteSize := by
      rw [Position.offset_after, isPlace, String.utf8ByteSize_append]
    rw [String.ofList_append, ← String.append_assoc] at short ⊢
    obtain ⟨each, ordered⟩ := ih behind short
    rw [Position.offset_after] at each
    rw [String.utf8ByteSize_append, String.utf8ByteSize_append] at short
    have words : UInt32.size = 2 ^ 32 := rfl
    have index : (Token.at place kind literal piece.text).span.index.toNat = place.offset :=
      UInt32.toNat_ofNat_of_lt' (by omega)
    have size : (Token.at place kind literal piece.text).span.size.toNat =
        (String.ofList piece.text).utf8ByteSize :=
      UInt32.toNat_ofNat_of_lt' (by omega)
    constructor
    · refine List.forall_mem_cons.2 ⟨⟨?_, ?_, ?_⟩, fun token member => ?_⟩
      · exact ⟨before, String.ofList rest, rfl, index.trans isPlace, size⟩
      · rw [index]
      · rw [size]
        exact Piece.utf8ByteSize_pos fits
      · obtain ⟨covers, later, positive⟩ := each token member
        exact ⟨covers, by omega, positive⟩
    · refine List.pairwise_cons.2 ⟨fun token member => ?_, ordered⟩
      rw [Token.stop, index, size]
      exact (each token member).2.1

/-- How a source text is divided into tokens, with warnings for what is wrong in it. -/
structure Partition (source : String) (tokens : List Token) (warnings : List Warning) : Prop where
  /-- Spans lie in the source, on the edges of characters, and lexemes are the text under them. -/
  covers : ∀ token ∈ tokens, token.Covers source
  fragment : ∀ token ∈ tokens, token.span.fragment? source.toList = some token.lexeme.toList
  inhabited : ∀ token ∈ tokens, 0 < token.span.size.toNat
  disjoint : tokens.Pairwise fun first second => first.stop ≤ second.span.index.toNat
  /-- Read from left to right, the source consists of the tokens and of what is skipped. -/
  scans : Scans .start source.toList tokens warnings
  /-- It can be read in no other way. -/
  unique : ∀ others reports, Scans .start source.toList others reports →
    others = tokens ∧ reports = warnings

/-- Scanning divides every source that is short enough for the numbers in spans. -/
theorem Finding.ofSource_partition {source : String} (short : source.utf8ByteSize < 2 ^ 32) :
    Partition source (tokens (ofSource source)) (warnings (ofSource source)) := by
  have scans : Scans .start source.toList (tokens (ofSource source)) (warnings (ofSource source)) :=
    Scans.of_cut .start source.toList
  have whole : "" ++ String.ofList source.toList = source := by
    rw [String.empty_append, String.ofList_toList]
  obtain ⟨each, ordered⟩ := scans.spans rfl (whole.symm ▸ short)
  rw [whole] at each
  exact ⟨fun token member => (each token member).1,
    fun token member => (each token member).1.fragment? short,
    fun token member => (each token member).2.2, ordered, scans,
    fun others reports read => read.unique⟩

/-- A source with a character of two bytes that starts no token, a comment that holds the beginning
of another one, a number that is too large for a word, and a string without its last quote. -/
theorem Finding.ofSource_partition_mixed :
    ∃ source tokens warnings, source = "let é9=/*/*/70000;//\n\"open" ∧
      source.utf8ByteSize < 2 ^ 32 ∧ Partition source tokens warnings ∧
      tokens.map Token.lexeme = ["let", "9", "=", "70000", ";", "\"open"] ∧
      tokens.map Token.literal =
        [none, some (.number 9), none, none, none, some (.text "open")] ∧
      warnings = [.strayCharacter 'é' 1 5, .openString 2 1] :=
  have short : "let é9=/*/*/70000;//\n\"open".utf8ByteSize < 2 ^ 32 := by decide +kernel
  ⟨_, _, _, rfl, short, ofSource_partition short, by decide +kernel, by decide +kernel,
    by decide +kernel⟩

end Jack
