import Jack.Token.Piece
import Mathlib.Data.List.Infix
import Mathlib.Data.List.TakeWhile

namespace Jack.Piece

/-- Whether a line ends in front of a text: with a newline, or since the text is empty. -/
def EndsLine (rest : List Char) : Prop :=
  ∀ c ∈ rest.head?, c = '\n'

/-- The two characters that end a block comment. -/
def commentEnd : List Char :=
  ['*', '/']

/-- What a piece may hold in front of the rest of a text. Comments go on to the first place where
they can end, words and numbers as long as they can, and a slash is no symbol where it begins a
comment. -/
def Fits (rest : List Char) : Piece → Prop
  | blank c => c = ' ' ∨ c = '\t' ∨ c = '\r' ∨ c = '\n'
  | lineComment body => '\n' ∉ body ∧ EndsLine rest
  | blockComment body => ¬commentEnd <:+: body ++ ['*']
  | openComment body => ¬commentEnd <:+: body ∧ rest = []
  | word letters =>
    (∃ c more, letters = c :: more ∧ isLetter c = true) ∧ (∀ c ∈ letters, isWordChar c = true) ∧
      ∀ c ∈ rest.head?, isWordChar c = false
  | number digits =>
    digits ≠ [] ∧ (∀ c ∈ digits, c.isDigit = true) ∧ ∀ c ∈ rest.head?, c.isDigit = false
  | closedString body => '"' ∉ body ∧ '\n' ∉ body
  | openString body => '"' ∉ body ∧ '\n' ∉ body ∧ EndsLine rest
  | symbol mark => mark = .slash → ∀ c ∈ rest.head?, c ≠ '/' ∧ c ≠ '*'
  | stray c =>
    isBlank c = false ∧ isWordChar c = false ∧ c ≠ '"' ∧ ∀ mark : Symbol, mark.char ≠ c

section Runs

variable {test : Char → Bool} {run rest : List Char}

/-- A run of characters ends where the test fails. -/
theorem takeWhile_run (passes : ∀ c ∈ run, test c = true)
    (stops : ∀ c ∈ rest.head?, test c = false) : (run ++ rest).takeWhile test = run := by
  rw [List.takeWhile_append_of_pos passes]
  cases rest with
  | nil => exact List.append_nil run
  | cons c rest =>
    have fails : ¬test c = true := by simpa using stops c rfl
    rw [List.takeWhile_cons_of_neg fails, List.append_nil]

theorem dropWhile_run (passes : ∀ c ∈ run, test c = true)
    (stops : ∀ c ∈ rest.head?, test c = false) : (run ++ rest).dropWhile test = rest := by
  rw [List.dropWhile_append_of_pos passes]
  cases rest with
  | nil => rfl
  | cons c rest =>
    have fails : ¬test c = true := by simpa using stops c rfl
    rw [List.dropWhile_cons_of_neg fails]

theorem notMem_of_passes {c : Char} (passes : ∀ c ∈ run, test c = true) (fails : test c = false) :
    c ∉ run :=
  fun member => Bool.noConfusion ((passes c member).symm.trans fails)

theorem passes_takeWhile (test : Char → Bool) (text : List Char) :
    ∀ c ∈ text.takeWhile test, test c = true :=
  fun _ => List.mem_takeWhile_imp

theorem stops_dropWhile (test : Char → Bool) (text : List Char) :
    ∀ c ∈ (text.dropWhile test).head?, test c = false := by
  intro c isHead
  have stops := List.head?_dropWhile_not test text
  rwa [Option.mem_def.1 isHead] at stops

end Runs

section Comments

variable {passed text body rest : List Char}

theorem commentEnd_prefix_iff {c : Char} :
    commentEnd <+: c :: rest ↔ c = '*' ∧ ∃ behind, rest = '/' :: behind := by
  rw [commentEnd, List.cons_prefix_cons]
  constructor
  · rintro ⟨rfl, behind, rfl⟩
    exact ⟨rfl, behind, rfl⟩
  · rintro ⟨rfl, behind, rfl⟩
    exact ⟨rfl, behind, rfl⟩

theorem splitComment_cons {c : Char} (goesOn : ¬commentEnd <+: c :: rest) :
    splitComment passed (c :: rest) = splitComment (c :: passed) rest := by
  rw [splitComment]
  · rintro behind rfl rfl
    exact goesOn (commentEnd_prefix_iff.2 ⟨rfl, behind, rfl⟩)

/-- A comment is split off at its first end. -/
theorem splitComment_append (first : ¬commentEnd <:+: body ++ ['*']) :
    splitComment passed (body ++ '*' :: '/' :: rest) = some (passed.reverse ++ body, rest) := by
  induction body generalizing passed with
  | nil =>
    rw [List.append_nil]
    rfl
  | cons c body ih =>
    obtain ⟨notHere, later⟩ := not_or.1 (mt List.infix_cons_iff.2 first)
    have goesOn : ¬commentEnd <+: c :: (body ++ '*' :: '/' :: rest) := by
      intro ends
      obtain ⟨rfl, behind, spelt⟩ := commentEnd_prefix_iff.1 ends
      cases body with
      | nil => cases spelt
      | cons d body =>
        obtain ⟨rfl, -⟩ := List.cons.inj spelt
        exact notHere (commentEnd_prefix_iff.2 ⟨rfl, _, rfl⟩)
    rw [List.cons_append, splitComment_cons goesOn, ih later, List.reverse_cons, List.append_assoc]
    rfl

theorem splitComment_eq_none (never : ¬commentEnd <:+: text) : splitComment passed text = none := by
  induction text generalizing passed with
  | nil => rfl
  | cons c text ih =>
    obtain ⟨notHere, later⟩ := not_or.1 (mt List.infix_cons_iff.2 never)
    rw [splitComment_cons notHere, ih later]

theorem not_infix_of_splitComment_eq_none (split : splitComment passed text = none) :
    ¬commentEnd <:+: text := by
  induction text generalizing passed with
  | nil => simp [commentEnd]
  | cons c text ih =>
    rw [List.infix_cons_iff]
    by_cases ends : commentEnd <+: c :: text
    · obtain ⟨rfl, behind, rfl⟩ := commentEnd_prefix_iff.1 ends
      cases split
    · rw [splitComment_cons ends] at split
      exact not_or.2 ⟨ends, ih split⟩

theorem first_of_splitComment (split : splitComment passed text = some (body, rest)) :
    ∃ own, body = passed.reverse ++ own ∧ text = own ++ '*' :: '/' :: rest ∧
      ¬commentEnd <:+: own ++ ['*'] := by
  induction text generalizing passed with
  | nil => cases split
  | cons c text ih =>
    by_cases ends : commentEnd <+: c :: text
    · obtain ⟨rfl, behind, rfl⟩ := commentEnd_prefix_iff.1 ends
      cases split
      exact ⟨[], (List.append_nil _).symm, rfl, by decide⟩
    · rw [splitComment_cons ends] at split
      obtain ⟨own, rfl, rfl, first⟩ := ih split
      refine ⟨c :: own, by simp, rfl, ?_⟩
      rw [List.cons_append, List.infix_cons_iff]
      -- An end of a comment at the front of its text would be one at the front of the whole text.
      refine not_or.2 ⟨fun here => ends ?_, first⟩
      obtain ⟨rfl, behind, spelt⟩ := commentEnd_prefix_iff.1 here
      cases own with
      | nil => cases spelt
      | cons d own =>
        obtain ⟨rfl, -⟩ := List.cons.inj spelt
        exact commentEnd_prefix_iff.2 ⟨rfl, _, rfl⟩

end Comments

variable {c : Char} {rest : List Char}

theorem isBlank_iff : isBlank c = true ↔ c = ' ' ∨ c = '\t' ∨ c = '\r' ∨ c = '\n' := by
  simp only [isBlank, Bool.or_eq_true, beq_iff_eq, or_assoc]

/-- How a text is cut that begins neither with a comment nor with a string. -/
theorem first_eq (noQuote : c ≠ '"')
    (noComment : c = '/' → ∀ d ∈ rest.head?, d ≠ '/' ∧ d ≠ '*') :
    first c rest =
      if isBlank c then (blank c, rest)
      else if isLetter c then
        (word (c :: rest.takeWhile isWordChar), rest.dropWhile isWordChar)
      else if c.isDigit then
        (number (c :: rest.takeWhile Char.isDigit), rest.dropWhile Char.isDigit)
      else
        match Symbol.ofChar? c with
        | some mark => (symbol mark, rest)
        | none => (stray c, rest) := by
  unfold first
  split
  · exact absurd rfl (noComment rfl '/' rfl).1
  · exact absurd rfl (noComment rfl '*' rfl).2
  · exact absurd rfl noQuote
  · rfl

/-- Letters and digits begin no comment, no string and no blank. -/
theorem first_of_isWordChar (isChar : isWordChar c = true) :
    first c rest =
      if isLetter c then (word (c :: rest.takeWhile isWordChar), rest.dropWhile isWordChar)
      else (number (c :: rest.takeWhile Char.isDigit), rest.dropWhile Char.isDigit) := by
  have noQuote : c ≠ '"' := by
    rintro rfl
    contradiction
  have noComment : c ≠ '/' := by
    rintro rfl
    contradiction
  have notBlank : isBlank c = false := by
    by_contra blank
    obtain rfl | rfl | rfl | rfl := isBlank_iff.1 (Bool.not_eq_false _ ▸ blank) <;> contradiction
  rw [first_eq noQuote fun slash => absurd slash noComment, notBlank]
  rcases Bool.or_eq_true .. ▸ isChar with letter | digit
  · simp only [letter, Bool.false_eq_true, if_true, if_false]
  · simp only [digit, Bool.false_eq_true, if_true, if_false]

theorem isLetter_of_isDigit (digit : c.isDigit = true) : isLetter c = false := by
  have notUnderscore : c ≠ '_' := by
    rintro rfl
    contradiction
  have ranges : isLetter c = ((decide (c.val ≥ 65 ∧ c.val ≤ 90) ||
      (decide (c.val ≥ 97) && decide (c.val ≤ 122))) || c == '_') := rfl
  simp only [Char.isDigit] at digit
  grind

theorem ofChar?_eq_none (noMark : ∀ mark : Symbol, mark.char ≠ c) : Symbol.ofChar? c = none :=
  List.find?_eq_none.2 fun mark _ => by simpa using noMark mark

theorem inString_of_notMem {body : List Char} (noQuote : '"' ∉ body) (noBreak : '\n' ∉ body) :
    ∀ c ∈ body, inString c = true := by
  intro c member
  have notQuote : c ≠ '"' := fun same => noQuote (same ▸ member)
  have notBreak : c ≠ '\n' := fun same => noBreak (same ▸ member)
  simp [inString, notQuote, notBreak]

/-- A piece that fits is cut off as it is. -/
theorem first_of_fits {piece : Piece} (fits : piece.Fits rest) :
    ∃ c more, piece.text ++ rest = c :: more ∧ first c more = (piece, rest) := by
  cases piece with
  | blank c =>
    obtain rfl | rfl | rfl | rfl := fits <;> exact ⟨_, rest, rfl, rfl⟩
  | lineComment body =>
    obtain ⟨noBreak, ends⟩ := fits
    have passes : ∀ c ∈ body, inLine c = true := fun c member =>
      bne_iff_ne.2 fun same => noBreak (same ▸ member)
    have stops : ∀ c ∈ rest.head?, inLine c = false := fun c isHead => by
      rw [ends c isHead]
      rfl
    refine ⟨'/', '/' :: (body ++ rest), rfl, ?_⟩
    rw [first, takeWhile_run passes stops, dropWhile_run passes stops]
  | blockComment body =>
    refine ⟨'/', '*' :: (body ++ '*' :: '/' :: rest), by simp [text], ?_⟩
    simp only [first, splitComment_append fits, List.reverse_nil, List.nil_append]
  | openComment body =>
    obtain ⟨never, rfl⟩ := fits
    refine ⟨'/', '*' :: body, by simp [text], ?_⟩
    simp only [first, splitComment_eq_none never]
  | word letters =>
    obtain ⟨⟨c, more, rfl, isFirst⟩, passes, stops⟩ := fits
    have others := (List.forall_mem_cons.1 passes).2
    refine ⟨c, more ++ rest, rfl, ?_⟩
    rw [first_of_isWordChar (passes c List.mem_cons_self), if_pos isFirst,
      takeWhile_run others stops, dropWhile_run others stops]
  | number digits =>
    obtain ⟨inhabited, passes, stops⟩ := fits
    obtain ⟨c, more, rfl⟩ := List.exists_cons_of_ne_nil inhabited
    obtain ⟨isFirst, others⟩ := List.forall_mem_cons.1 passes
    refine ⟨c, more ++ rest, rfl, ?_⟩
    have notLetter : ¬isLetter c = true := by simp [isLetter_of_isDigit isFirst]
    rw [first_of_isWordChar (by simp [isWordChar, isFirst]), if_neg notLetter,
      takeWhile_run others stops, dropWhile_run others stops]
  | closedString body =>
    obtain ⟨noQuote, noBreak⟩ := fits
    have passes := inString_of_notMem noQuote noBreak
    have stops : ∀ c ∈ ('"' :: rest).head?, inString c = false := by simp [inString]
    refine ⟨'"', body ++ '"' :: rest, by simp [text], ?_⟩
    simp only [first, takeWhile_run passes stops, dropWhile_run passes stops]
  | openString body =>
    obtain ⟨noQuote, noBreak, ends⟩ := fits
    have passes := inString_of_notMem noQuote noBreak
    have stops : ∀ c ∈ rest.head?, inString c = false := fun c isHead => by
      rw [ends c isHead]
      rfl
    refine ⟨'"', body ++ rest, rfl, ?_⟩
    simp only [first, takeWhile_run passes stops, dropWhile_run passes stops]
    split
    · cases ends _ rfl
    · rfl
  | symbol mark =>
    refine ⟨mark.char, rest, rfl, ?_⟩
    rw [first_eq (by cases mark <;> decide) fun slash => fits (by cases mark <;> trivial)]
    cases mark <;> rfl
  | stray c =>
    obtain ⟨notBlank, notChar, noQuote, noMark⟩ := fits
    obtain ⟨notLetter, notDigit⟩ := Bool.or_eq_false_iff.1 notChar
    refine ⟨c, rest, rfl, ?_⟩
    rw [first_eq noQuote fun slash => absurd slash.symm (noMark .slash), ofChar?_eq_none noMark,
      notBlank, notLetter, notDigit]
    rfl

theorem endsLine_dropWhile (text : List Char) : EndsLine (text.dropWhile inLine) := by
  intro c isHead
  simpa [inLine] using stops_dropWhile inLine text c isHead

theorem notMem_takeWhile_inString (text : List Char) :
    '"' ∉ text.takeWhile inString ∧ '\n' ∉ text.takeWhile inString := by
  constructor <;> intro member <;>
    exact absurd (passes_takeWhile inString text _ member) (by decide)

theorem fits_string (rest : List Char) : (first '"' rest).1.Fits (first '"' rest).2 := by
  obtain ⟨noQuote, noBreak⟩ := notMem_takeWhile_inString rest
  rw [first]
  split
  · exact ⟨noQuote, noBreak⟩
  · rename_i notClosed
    refine ⟨noQuote, noBreak, fun c isHead => ?_⟩
    have stops := stops_dropWhile inString rest c isHead
    obtain ⟨behind, spelt⟩ := List.head?_eq_some_iff.1 isHead
    have notQuote : c ≠ '"' := by
      rintro rfl
      exact notClosed behind spelt
    simpa [inString, notQuote] using stops

theorem fits_lineComment (rest : List Char) :
    (first '/' ('/' :: rest)).1.Fits (first '/' ('/' :: rest)).2 := by
  rw [first]
  refine ⟨fun member => ?_, endsLine_dropWhile rest⟩
  exact absurd (passes_takeWhile inLine rest _ member) (by decide)

theorem fits_blockComment (rest : List Char) :
    (first '/' ('*' :: rest)).1.Fits (first '/' ('*' :: rest)).2 := by
  rw [first]
  split
  · rename_i split
    obtain ⟨own, rfl, -, isFirst⟩ := first_of_splitComment split
    exact isFirst
  · rename_i split
    exact ⟨not_infix_of_splitComment_eq_none split, rfl⟩

/-- What is cut off fits, where neither a comment nor a string begins. -/
theorem fits_plain (noQuote : c ≠ '"')
    (noComment : c = '/' → ∀ d ∈ rest.head?, d ≠ '/' ∧ d ≠ '*') :
    (first c rest).1.Fits (first c rest).2 := by
  rw [first_eq noQuote noComment]
  split
  · rename_i isBlank
    exact isBlank_iff.1 isBlank
  · rename_i notBlank
    split
    · rename_i letter
      have isChar : isWordChar c = true := by rw [isWordChar, letter, Bool.true_or]
      exact ⟨⟨c, _, rfl, letter⟩, List.forall_mem_cons.2 ⟨isChar, passes_takeWhile _ rest⟩,
        stops_dropWhile _ rest⟩
    · rename_i notLetter
      split
      · rename_i digit
        exact ⟨List.cons_ne_nil _ _, List.forall_mem_cons.2 ⟨digit, passes_takeWhile _ rest⟩,
          stops_dropWhile _ rest⟩
      · rename_i notDigit
        split
        · rename_i mark found
          rintro rfl
          exact noComment (char_of_ofChar? found).symm
        · rename_i notFound
          refine ⟨by simpa using notBlank, by simp [isWordChar, notLetter, notDigit], noQuote, ?_⟩
          intro mark same
          rw [← same, Symbol.ofChar?_char] at notFound
          cases notFound

/-- What is cut off fits. -/
theorem fits_first (c : Char) (rest : List Char) : (first c rest).1.Fits (first c rest).2 := by
  by_cases quote : c = '"'
  · subst quote
    exact fits_string rest
  · by_cases plain : c = '/' → ∀ d ∈ rest.head?, d ≠ '/' ∧ d ≠ '*'
    · exact fits_plain quote plain
    · obtain ⟨rfl, begins⟩ := Classical.not_imp.1 plain
      obtain _ | ⟨d, rest⟩ := rest
      · exact absurd (fun d isHead => absurd isHead (Option.not_mem_none d)) begins
      · have comment : d = '/' ∨ d = '*' := by
          by_contra neither
          refine begins fun e isHead => ?_
          obtain rfl := Option.some.inj isHead
          exact not_or.1 neither
        obtain rfl | rfl := comment
        · exact fits_lineComment rest
        · exact fits_blockComment rest

/-- A piece that fits comes first, and the text behind it is cut on its own. -/
theorem cut_append {piece : Piece} (fits : piece.Fits rest) :
    cut (piece.text ++ rest) = piece :: cut rest := by
  obtain ⟨c, more, spelt, isFirst⟩ := first_of_fits fits
  rw [spelt, cut_cons, isFirst]

end Jack.Piece
