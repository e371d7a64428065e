import Jack.Keyword

namespace Jack

/-- What a source text is made of. Only words, numbers, strings and symbols are tokens. An open
comment runs to the end of the text, an open string to the end of its line, and a stray character
can start no piece of another kind. -/
inductive Piece where
  | blank (c : Char)
  | lineComment (body : List Char)
  | blockComment (body : List Char)
  | openComment (body : List Char)
  | word (letters : List Char)
  | number (digits : List Char)
  | closedString (body : List Char)
  | openString (body : List Char)
  | symbol (mark : Symbol)
  | stray (c : Char)
deriving DecidableEq, Repr

namespace Piece

def isBlank (c : Char) : Bool :=
  c == ' ' || c == '\t' || c == '\r' || c == '\n'

/-- Letters are those of the ASCII alphabet and the underscore. -/
def isLetter (c : Char) : Bool :=
  c.isAlpha || c == '_'

def isWordChar (c : Char) : Bool :=
  isLetter c || c.isDigit

def inLine (c : Char) : Bool :=
  c != '\n'

def inString (c : Char) : Bool :=
  c != '"' && c != '\n'

/-- The characters of a piece as they stand in the source text. -/
def text : Piece → List Char
  | blank c => [c]
  | lineComment body => '/' :: '/' :: body
  | blockComment body => '/' :: '*' :: (body ++ ['*', '/'])
  | openComment body => '/' :: '*' :: body
  | word letters => letters
  | number digits => digits
  | closedString body => '"' :: (body ++ ['"'])
  | openString body => '"' :: body
  | symbol mark => [mark.char]
  | stray c => [c]

/-- What stands before the first end of a block comment, and what stands behind it. The
characters already passed come in reverse order. -/
def splitComment : List Char → List Char → Option (List Char × List Char)
  | _, [] => none
  | passed, c :: rest =>
    match c, rest with
    | '*', '/' :: rest => some (passed.reverse, rest)
    | c, rest => splitComment (c :: passed) rest

/-- The piece at the front of a text that is not empty, and the text behind it. -/
def first (c : Char) (rest : List Char) : Piece × List Char :=
  match c, rest with
  | '/', '/' :: rest => (lineComment (rest.takeWhile inLine), rest.dropWhile inLine)
  | '/', '*' :: rest =>
    match splitComment [] rest with
    | some (body, rest) => (blockComment body, rest)
    | none => (openComment rest, [])
  | '"', rest =>
    match rest.dropWhile inString with
    | '"' :: behind => (closedString (rest.takeWhile inString), behind)
    | behind => (openString (rest.takeWhile inString), behind)
  | c, rest =>
    if isBlank c then (blank c, rest)
    else if isLetter c then
      (word (c :: rest.takeWhile isWordChar), rest.dropWhile isWordChar)
    else if c.isDigit then
      (number (c :: rest.takeWhile Char.isDigit), rest.dropWhile Char.isDigit)
    else
      match Symbol.ofChar? c with
      | some mark => (symbol mark, rest)
      | none => (stray c, rest)

theorem splitComment_eq_some {passed text body rest : List Char}
    (split : splitComment passed text = some (body, rest)) :
    passed.reverse ++ text = body ++ '*' :: '/' :: rest := by
  fun_induction splitComment passed text with
  | case1 => simp at split
  | case2 passed rest' =>
    simp only [Option.some.injEq, Prod.mk.injEq] at split
    obtain ⟨rfl, rfl⟩ := split
    rfl
  | case3 passed c rest' _ ih => simpa using ih split

theorem char_of_ofChar? {c : Char} {mark : Symbol} (found : Symbol.ofChar? c = some mark) :
    mark.char = c := by
  have match_ := List.find?_some found
  simpa using match_

/-- Cutting off a piece loses nothing. -/
theorem first_text (c : Char) (rest : List Char) :
    (first c rest).1.text ++ (first c rest).2 = c :: rest := by
  unfold first
  split
  · simp [text]
  · split
    · rename_i found
      simpa [text] using (splitComment_eq_some found).symm
    · simp [text]
  · split
    · rename_i found
      simp [text, ← found]
    · simp [text]
  · split
    · simp [text]
    · split
      · simp [text]
      · split
        · simp [text]
        · split
          · rename_i found
            simp [text, char_of_ofChar? found]
          · simp [text]

theorem first_ne_nil (c : Char) (rest : List Char) : (first c rest).1.text ≠ [] := by
  fun_cases first c rest <;> simp_all [text]

/-- A piece is not empty, so the text behind it is shorter. -/
theorem first_length (c : Char) (rest : List Char) :
    (first c rest).2.length < (c :: rest).length := by
  have whole := congrArg List.length (first_text c rest)
  have positive := List.length_pos_iff.2 (first_ne_nil c rest)
  rw [List.length_append] at whole
  omega

/-- Cuts a text up, behind the pieces already found. -/
def cutOnto (found : Array Piece) : List Char → Array Piece
  | [] => found
  | c :: rest =>
    match _cut : first c rest with
    | (piece, rest') => cutOnto (found.push piece) rest'
termination_by text => text.length
decreasing_by
  have shorter := first_length c rest
  rw [_cut] at shorter
  exact shorter

/-- The pieces of a text in order. -/
def cut (text : List Char) : List Piece :=
  (cutOnto #[] text).toList

theorem toList_cutOnto (found : Array Piece) (text : List Char) :
    (cutOnto found text).toList = found.toList ++ cut text := by
  induction hn : text.length using Nat.strongRecOn generalizing found text with
  | ind n ih =>
    cases text with
    | nil => simp [cut, cutOnto]
    | cons c rest =>
      have shorter := first_length c rest
      rw [cut, cutOnto, cutOnto]
      rw [ih _ (hn ▸ shorter) (found.push (first c rest).1) (first c rest).2 rfl,
        ih _ (hn ▸ shorter) (#[].push (first c rest).1) (first c rest).2 rfl]
      simp

theorem cut_nil : cut [] = [] := by
  simp [cut, cutOnto]

theorem cut_cons (c : Char) (rest : List Char) :
    cut (c :: rest) = (first c rest).1 :: cut (first c rest).2 := by
  rw [cut, cutOnto, toList_cutOnto]
  simp

end Piece

end Jack
