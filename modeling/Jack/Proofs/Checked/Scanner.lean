import Jack.Proofs.Checked.Cursor

namespace Jack

/-- The characters under a span. -/
def Span.cutOut (source : List Char) (span : Span) : Checked (List Char) := do
  let stop ← Checked.add span.index span.size
  Checked.slice source span.index.toNat stop.toNat

namespace Cursor

/-- The span from a place up to the current character. -/
def span (start : Position) (cursor : Cursor) : Checked Span := do
  let stop ← cursor.peekOffset
  Checked.assert (start.offset ≤ stop)
  let index ← Checked.word start.offset
  let size ← Checked.sub stop start.offset
  let size ← Checked.word size
  .ok ⟨index, size⟩

def fragment (source : List Char) (start : Position) (cursor : Cursor) : Checked (List Char) := do
  let span ← cursor.span start
  span.cutOut source

/-- A token from a place up to the current character, and the cursor behind it. -/
def token (source : List Char) (start : Position) (kind : Token.Kind) (literal : Option Literal)
    (cursor : Cursor) : Checked (Token × Cursor) := do
  let span ← cursor.span start
  let lexeme ← span.cutOut source
  let later ← cursor.next
  let stop ← Checked.add span.index span.size
  Checked.assert (later.offset = stop.toNat)
  let token :=
    { kind, lexeme := String.ofList lexeme, literal, span
      line := start.line, startColumn := start.column, endColumn := cursor.column }
  .ok (token, later)

/-- Up to the newline that ends a comment. -/
def lineComment (cursor : Cursor) : Checked (List Finding × Cursor) := do
  Checked.assert (cursor.current = '/')
  let later ← cursor.advanceWhile fun here => !here.atEnd && here.current != '\n'
  .ok ([], later)

/-- Behind the first end of a comment. -/
def blockComment (cursor : Cursor) : Checked (List Finding × Cursor) := do
  Checked.assert (cursor.current = '/')
  let star ← cursor.next
  let inside ← star.next
  let last ← inside.advanceWhile fun here =>
    !here.atEnd && !(here.current == '*' && here.peek == '/')
  if last.atEnd then .ok ([.warning (.openComment cursor.line cursor.column)], last)
  else
    let slash ← last.next
    let behind ← slash.next
    .ok ([], behind)

/-- A token of all characters that a test accepts, which say of what kind it is and what it stands
for. -/
def run (accepts : Char → Bool) (read : List Char → Token.Kind × Option Literal)
    (source : List Char) (cursor : Cursor) : Checked (List Finding × Cursor) := do
  let last ← cursor.advanceWhile fun here => accepts here.peek
  let text ← last.fragment source cursor.place
  let (kind, literal) := read text
  let (token, behind) ← last.token source cursor.place kind literal
  .ok ([.token token], behind)

def readWord (letters : List Char) : Token.Kind × Option Literal :=
  let kind :=
    match Keyword.ofText? (String.ofList letters) with
    | some word => Token.Kind.keyword word
    | none => .identifier
  (kind, none)

def readNumber (digits : List Char) : Token.Kind × Option Literal :=
  (.integer, (wordValue? digits).map .number)

def word (source : List Char) (cursor : Cursor) : Checked (List Finding × Cursor) := do
  Checked.assert (Piece.isLetter cursor.current)
  cursor.run Piece.isWordChar readWord source

def number (source : List Char) (cursor : Cursor) : Checked (List Finding × Cursor) := do
  Checked.assert cursor.current.isDigit
  cursor.run Char.isDigit readNumber source

/-- A string without its quotes, of which the second may be missing. -/
def stringBody (closed : Bool) (lexeme : List Char) : Checked (List Char) := do
  let size := (String.ofList lexeme).utf8ByteSize
  let stop ← (if closed then Checked.sub size 1 else .ok size)
  Checked.slice lexeme 1 stop

def string (source : List Char) (cursor : Cursor) : Checked (List Finding × Cursor) := do
  Checked.assert (cursor.current = '"')
  let body ← cursor.advanceWhile fun here => here.peek?.any Piece.inString
  let closed := body.peek? == some '"'
  let last ← (if closed then body.next else .ok body)
  let warnings :=
    if closed then [] else [Finding.warning (.openString cursor.line cursor.column)]
  let lexeme ← last.fragment source cursor.place
  let value ← stringBody closed lexeme
  let literal := Literal.text (String.ofList value)
  let (token, behind) ← last.token source cursor.place .string (some literal)
  .ok (warnings ++ [.token token], behind)

/-- A symbol, or a character that nothing can begin with. -/
def single (source : List Char) (cursor : Cursor) : Checked (List Finding × Cursor) :=
  match Symbol.ofChar? cursor.current with
  | some mark => do
    let (token, behind) ← cursor.token source cursor.place (.symbol mark) none
    .ok ([.token token], behind)
  | none => do
    let behind ← cursor.next
    .ok ([.warning (.strayCharacter cursor.current cursor.line cursor.column)], behind)

/-- What begins at the current character, and the cursor behind it. -/
def piece (source : List Char) (cursor : Cursor) : Checked (List Finding × Cursor) :=
  if Piece.isBlank cursor.current then do
    let behind ← cursor.next
    .ok ([], behind)
  else if cursor.current = '/' ∧ cursor.peek = '/' then cursor.lineComment
  else if cursor.current = '/' ∧ cursor.peek = '*' then cursor.blockComment
  else if cursor.current = '"' then cursor.string source
  else if cursor.current.isDigit then cursor.number source
  else if Piece.isLetter cursor.current then cursor.word source
  else cursor.single source

def scanOnto (source : List Char) (found : Array Finding) (cursor : Cursor) :
    Checked (Array Finding) :=
  if cursor.atEnd then .ok found
  else
    match cursor.piece source with
    | .error fault => .error fault
    | .ok (findings, later) =>
      if later.left < cursor.left then scanOnto source (found ++ findings) later
      else .error .stuck
termination_by cursor.left

end Cursor

/-- Everything found in a source text by going through it with a cursor. -/
def Finding.scan (source : String) : Checked (List Finding) := do
  let cursor ← (Cursor.ofText source).next
  let found ← cursor.scanOnto source.toList #[]
  .ok found.toList

theorem Checked.assert_of_true {condition : Bool} (holds : condition = true) :
    assert condition = .ok () :=
  if_pos holds

/-- On one line only the column goes up. -/
theorem Position.after_of_inLine {text : List Char} (inLine : ∀ c ∈ text, c ≠ '\n')
    (place : Position) : (place.after text).line = place.line ∧
      (place.after text).column = place.column + text.length := by
  induction text generalizing place with
  | nil => exact ⟨rfl, rfl⟩
  | cons c text ih =>
    obtain ⟨own, others⟩ := List.forall_mem_cons.1 inLine
    obtain ⟨line, column⟩ := ih others (place.next c)
    have moved : place.next c = ⟨place.offset + c.utf8Size, place.line, place.column + 1⟩ :=
      if_neg own
    have behind : place.after (c :: text) = (place.next c).after text := rfl
    rw [behind, line, column, moved, List.length_cons]
    exact ⟨rfl, Nat.succ_add_eq_add_succ ..⟩

namespace Cursor

variable {before run text rest : List Char} {last : Char}

theorem peekOffset_between {c : Char} (short : Short (before ++ c :: rest)) :
    (between before (c :: rest)).peekOffset =
      .ok (String.ofList (before ++ [c])).utf8ByteSize := by
  have stop : (Position.start.after before).offset + c.utf8Size =
      (String.ofList (before ++ [c])).utf8ByteSize := by
    rw [← offset_start, Position.after_append]
    exact (Position.offset_next ..).symm
  have fits : (String.ofList (before ++ [c])).utf8ByteSize < 2 ^ 64 := by
    rw [List.append_cons, Short, String.ofList_append, String.utf8ByteSize_append] at short
    omega
  rw [peekOffset, atEnd_cons, if_neg Bool.false_ne_true]
  show Checked.size ((Position.start.after before).offset + c.utf8Size) = _
  rw [stop, Checked.size, if_pos fits]

/-- The span of a text that ends at the current character. -/
theorem span_between (isText : text = run ++ [last]) (short : Short (before ++ (text ++ rest))) :
    (between (before ++ run) (last :: rest)).span (Position.start.after before) =
      .ok ⟨(String.ofList before).utf8ByteSize.toUInt32,
        (String.ofList text).utf8ByteSize.toUInt32⟩ := by
  have stop : (between (before ++ run) (last :: rest)).peekOffset =
      .ok ((String.ofList before).utf8ByteSize + (String.ofList text).utf8ByteSize) := by
    rw [peekOffset_between (by simpa [isText] using short), List.append_assoc, ← isText,
      String.ofList_append, String.utf8ByteSize_append]
  simp only [Short, String.ofList_append, String.utf8ByteSize_append] at short
  rw [span, stop, offset_start, Checked.ok_bind,
    Checked.assert_of_true (decide_eq_true (Nat.le_add_right _ _)), Checked.ok_bind, Checked.word,
    if_pos (by omega), Checked.ok_bind, Checked.sub, if_pos (Nat.le_add_right _ _),
    Checked.ok_bind, Nat.add_sub_cancel_left, Checked.word, if_pos (by omega), Checked.ok_bind]

end Cursor

/-- Both ends of a span in a short text are words. -/
theorem Span.toNat_of_short {before text rest : List Char}
    (short : Short (before ++ (text ++ rest))) :
    (String.ofList before).utf8ByteSize.toUInt32.toNat = (String.ofList before).utf8ByteSize ∧
      Checked.add (String.ofList before).utf8ByteSize.toUInt32
          (String.ofList text).utf8ByteSize.toUInt32 =
        .ok ((String.ofList before).utf8ByteSize + (String.ofList text).utf8ByteSize).toUInt32 ∧
      ((String.ofList before).utf8ByteSize + (String.ofList text).utf8ByteSize).toUInt32.toNat =
        (String.ofList before).utf8ByteSize + (String.ofList text).utf8ByteSize := by
  simp only [Short, String.ofList_append, String.utf8ByteSize_append] at short
  have words : UInt32.size = 2 ^ 32 := rfl
  have first : (String.ofList before).utf8ByteSize.toUInt32.toNat =
      (String.ofList before).utf8ByteSize := UInt32.toNat_ofNat_of_lt' (by omega)
  have second : (String.ofList text).utf8ByteSize.toUInt32.toNat =
      (String.ofList text).utf8ByteSize := UInt32.toNat_ofNat_of_lt' (by omega)
  refine ⟨first, ?_, UInt32.toNat_ofNat_of_lt' (by omega)⟩
  rw [Checked.add, first, second, if_pos (by omega)]
  exact congrArg Except.ok (UInt32.ofNat_add ..).symm

namespace Cursor

variable {before run text rest : List Char} {last : Char}

theorem cutOut_between (short : Short (before ++ (text ++ rest))) :
    Span.cutOut (before ++ (text ++ rest)) ⟨(String.ofList before).utf8ByteSize.toUInt32,
      (String.ofList text).utf8ByteSize.toUInt32⟩ = .ok text := by
  obtain ⟨first, stop, isStop⟩ := Span.toNat_of_short short
  rw [Span.cutOut, stop, Checked.ok_bind, first, isStop]
  exact Checked.slice_append before text rest

theorem fragment_between (isText : text = run ++ [last])
    (short : Short (before ++ (text ++ rest))) :
    (between (before ++ run) (last :: rest)).fragment (before ++ (text ++ rest))
      (Position.start.after before) = .ok text := by
  rw [fragment, span_between isText short, Checked.ok_bind, cutOut_between short]

theorem token_between (isText : text = run ++ [last]) (short : Short (before ++ (text ++ rest)))
    (inLine : ∀ c ∈ run, c ≠ '\n') (kind : Token.Kind) (literal : Option Literal) :
    (between (before ++ run) (last :: rest)).token (before ++ (text ++ rest))
        (Position.start.after before) kind literal =
      .ok (.at (Position.start.after before) kind literal text, between (before ++ text) rest) := by
  obtain ⟨-, stop, isStop⟩ := Span.toNat_of_short short
  have moves := @next_between (before ++ run) rest last (by simpa [isText] using short)
  rw [List.append_assoc, ← isText] at moves
  have offset : (between (before ++ text) rest).offset =
      (String.ofList before).utf8ByteSize + (String.ofList text).utf8ByteSize := by
    rw [← String.utf8ByteSize_append, ← String.ofList_append, ← offset_start]
    cases rest <;> rfl
  have column : (between (before ++ run) (last :: rest)).column =
      (Position.start.after before).column + text.length - 1 := by
    rw [isText, List.length_append]
    exact ((Position.after_append ..).symm ▸ (Position.after_of_inLine inLine _).2 :)
  have arrives : decide ((between (before ++ text) rest).offset =
      ((String.ofList before).utf8ByteSize + (String.ofList text).utf8ByteSize).toUInt32.toNat) =
        true := decide_eq_true (offset.trans isStop.symm)
  rw [token, span_between isText short, Checked.ok_bind, cutOut_between short,
    Checked.ok_bind, moves, Checked.ok_bind, stop, Checked.ok_bind,
    Checked.assert_of_true arrives, Checked.ok_bind, column,
    ← offset_start before]
  rfl

/-- The cursor goes on to the last character before one that is not accepted. -/
theorem advanceWhile_peek {accepts : Option Char → Bool} {c : Char} {taken : List Char}
    (short : Short (before ++ (c :: taken ++ rest)))
    (goesOn : ∀ d ∈ taken, accepts (some d) = true) (stops : accepts rest.head? = false) :
    ∃ run last, c :: taken = run ++ [last] ∧
      (between before (c :: taken ++ rest)).advanceWhile (fun here => accepts here.peek?) =
        .ok (between (before ++ run) (last :: rest)) := by
  obtain ⟨run, last, split⟩ : ∃ run last, c :: taken = run ++ [last] :=
    ⟨_, _, (List.dropLast_append_getLast (List.cons_ne_nil c taken)).symm⟩
  refine ⟨run, last, split, ?_⟩
  rw [split, List.append_assoc] at short ⊢
  refine advanceWhile_between short (fun front d back isRun => ?_) stops
  -- The next character is one of those that were taken behind the first.
  have inside : ∀ e ∈ back ++ [last], e ∈ taken := by
    intro e member
    rw [isRun] at split
    cases front with
    | nil => exact (List.cons.inj split).2 ▸ member
    | cons _ front =>
      have isTaken : taken = front ++ d :: (back ++ [last]) := by
        simpa using (List.cons.inj split).2
      exact isTaken ▸ List.mem_append_right front (List.mem_cons_of_mem d member)
  cases back with
  | nil => exact goesOn last (inside last List.mem_cons_self)
  | cons e back => exact goesOn e (inside e List.mem_cons_self)

theorem lineComment_between {body : List Char} (fits : (Piece.lineComment body).Fits rest)
    (short : Short (before ++ ((Piece.lineComment body).text ++ rest))) :
    (between before ((Piece.lineComment body).text ++ rest)).lineComment =
      .ok ([], between (before ++ (Piece.lineComment body).text) rest) := by
  obtain ⟨noBreak, ends⟩ := fits
  have slash : (between before ((Piece.lineComment body).text ++ rest)).current = '/' := rfl
  have inLine : '\n' ∉ (Piece.lineComment body).text := by simpa [Piece.text] using noBreak
  rw [lineComment, Checked.assert_of_true (decide_eq_true slash), Checked.ok_bind,
    advanceWhile_between short ?_ ?_, Checked.ok_bind]
  · intro front c back isText
    have other : c ≠ '\n' := fun same => inLine (isText ▸ same ▸ by simp)
    rw [atEnd_cons]
    exact bne_iff_ne.2 other
  · cases rest with
    | nil => rw [atEnd_nil]; rfl
    | cons c rest =>
      obtain rfl := ends c rfl
      rw [atEnd_cons]
      rfl

/-- The cursor sees an end of a comment only where there is one. -/
theorem not_sees_commentEnd {c : Char} (other : ¬Piece.commentEnd <+: c :: rest) :
    ((between before (c :: rest)).current == '*' &&
      (between before (c :: rest)).peek == '/') = false := by
  refine Bool.eq_false_iff.2 fun sees => ?_
  obtain ⟨isStar, isSlash⟩ := Bool.and_eq_true_iff.1 sees
  obtain rfl : c = '*' := eq_of_beq isStar
  have isNext : rest.head?.getD endMark = '/' := eq_of_beq isSlash
  refine other (Piece.commentEnd_prefix_iff.2 ⟨rfl, ?_⟩)
  cases rest with
  | nil => cases isNext
  | cons d rest =>
    obtain rfl : d = '/' := isNext
    exact ⟨rest, rfl⟩

/-- Behind the mark that opens a comment the cursor goes on to its first end. -/
theorem advance_comment {body : List Char}
    (short : Short (before ++ ('/' :: '*' :: (body ++ rest))))
    (goesOn : ∀ front c back, body = front ++ c :: back →
      ¬Piece.commentEnd <+: c :: (back ++ rest))
    (stops : rest = [] ∨ Piece.commentEnd <+: rest) :
    ∃ star inside, (between before ('/' :: '*' :: (body ++ rest))).next = .ok star ∧
      star.next = .ok inside ∧
      inside.advanceWhile (fun here => !here.atEnd && !(here.current == '*' && here.peek == '/')) =
        .ok (between (before ++ '/' :: '*' :: body) rest) := by
  have opened : before ++ '/' :: '*' :: body = before ++ ['/'] ++ ['*'] ++ body := by simp
  have behind : Short (before ++ ['/'] ++ '*' :: (body ++ rest)) := by simpa using short
  have inside : Short (before ++ ['/'] ++ ['*'] ++ (body ++ rest)) := by simpa using short
  rw [opened]
  refine ⟨_, _, next_between short, next_between behind, advanceWhile_between inside ?_ ?_⟩
  · intro front c back isBody
    rw [atEnd_cons, not_sees_commentEnd (goesOn front c back isBody)]
    rfl
  · rcases stops with rfl | ⟨more, rfl⟩
    · rw [atEnd_nil]
      rfl
    · show (!(between _ ('*' :: '/' :: more)).atEnd && _) = false
      rw [atEnd_cons]
      rfl

theorem blockComment_between {body : List Char} (fits : (Piece.blockComment body).Fits rest)
    (short : Short (before ++ ((Piece.blockComment body).text ++ rest))) :
    (between before ((Piece.blockComment body).text ++ rest)).blockComment =
      .ok ([], between (before ++ (Piece.blockComment body).text) rest) := by
  have spelt : (Piece.blockComment body).text ++ rest =
      '/' :: '*' :: (body ++ '*' :: '/' :: rest) := by simp [Piece.text]
  have whole : before ++ (Piece.blockComment body).text =
      before ++ '/' :: '*' :: body ++ ['*'] ++ ['/'] := by simp [Piece.text]
  have slash : (between before ('/' :: '*' :: (body ++ '*' :: '/' :: rest))).current = '/' := rfl
  rw [spelt] at short ⊢
  have atStar : Short (before ++ '/' :: '*' :: body ++ '*' :: '/' :: rest) := by
    simpa using short
  have atSlash : Short (before ++ '/' :: '*' :: body ++ ['*'] ++ '/' :: rest) := by
    simpa using short
  have goesOn : ∀ front c back, body = front ++ c :: back →
      ¬Piece.commentEnd <+: c :: (back ++ '*' :: '/' :: rest) := by
    rintro front c back rfl ends
    obtain ⟨rfl, behind, isNext⟩ := Piece.commentEnd_prefix_iff.1 ends
    cases back with
    | nil => cases isNext
    | cons d back =>
      obtain ⟨rfl, -⟩ := List.cons.inj isNext
      exact fits ⟨front, back ++ ['*'], by simp [Piece.commentEnd]⟩
  obtain ⟨star, inside, first, second, advances⟩ := advance_comment short goesOn (.inr ⟨rest, rfl⟩)
  rw [whole, blockComment, Checked.assert_of_true (decide_eq_true slash), Checked.ok_bind, first,
    Checked.ok_bind, second, Checked.ok_bind, advances, Checked.ok_bind, atEnd_cons,
    next_between atStar, Checked.ok_bind, next_between atSlash]
  rfl

theorem openComment_between {body : List Char} (fits : (Piece.openComment body).Fits rest)
    (short : Short (before ++ ((Piece.openComment body).text ++ rest))) :
    (between before ((Piece.openComment body).text ++ rest)).blockComment =
      .ok (Finding.ofPiece (Position.start.after before) (.openComment body),
        between (before ++ (Piece.openComment body).text) rest) := by
  obtain ⟨never, rfl⟩ := fits
  have slash : (between before ((Piece.openComment body).text ++ [])).current = '/' := rfl
  have goesOn : ∀ front c back, body = front ++ c :: back →
      ¬Piece.commentEnd <+: c :: (back ++ []) := by
    rintro front c back rfl ⟨behind, spelt⟩
    exact never ⟨front, behind, by rw [List.append_assoc, spelt, List.append_nil]⟩
  obtain ⟨star, inside, first, second, advances⟩ := advance_comment short goesOn (.inl rfl)
  rw [blockComment, Checked.assert_of_true (decide_eq_true slash), Checked.ok_bind]
  show ((between before ('/' :: '*' :: (body ++ []))).next >>= fun _ => _) = _
  rw [first, Checked.ok_bind, second, Checked.ok_bind, advances, Checked.ok_bind, atEnd_nil]
  rfl

theorem current_cons (before : List Char) (c : Char) (rest : List Char) :
    (between before (c :: rest)).current = c :=
  rfl

theorem place_cons (before : List Char) (c : Char) (rest : List Char) :
    (between before (c :: rest)).place = Position.start.after before :=
  rfl

/-- A run of characters is a token of its own if the next character is not accepted. -/
theorem advance_run {accepts : Option Char → Bool} {c : Char} {taken : List Char}
    (short : Short (before ++ (c :: taken ++ rest)))
    (goesOn : ∀ d ∈ taken, accepts (some d) = true) (stops : accepts rest.head? = false)
    (inLine : '\n' ∉ c :: taken) :
    ∃ last : Cursor,
      (between before (c :: (taken ++ rest))).advanceWhile (fun here => accepts here.peek?) =
        .ok last ∧ last.peek? = rest.head? ∧
      last.fragment (before ++ c :: (taken ++ rest)) (Position.start.after before) =
        .ok (c :: taken) ∧
      ∀ kind literal, last.token (before ++ c :: (taken ++ rest)) (Position.start.after before)
          kind literal =
        .ok (.at (Position.start.after before) kind literal (c :: taken),
          between (before ++ c :: taken) rest) := by
  obtain ⟨run, last, split, advances⟩ := advanceWhile_peek short goesOn stops
  have noBreak : ∀ d ∈ run, d ≠ '\n' := fun d member same =>
    inLine (split ▸ List.mem_append_left [last] (same ▸ member))
  exact ⟨_, advances, rfl, fragment_between split short, token_between split short noBreak⟩

theorem run_between {accepts : Char → Bool} {c : Char} {taken : List Char}
    (short : Short (before ++ (c :: taken ++ rest))) (passes : ∀ d ∈ c :: taken, accepts d = true)
    (stops : ∀ d ∈ rest.head?, accepts d = false) (noMark : accepts endMark = false)
    (noBreak : accepts '\n' = false) (read : List Char → Token.Kind × Option Literal) :
    (between before (c :: (taken ++ rest))).run accepts read (before ++ c :: (taken ++ rest)) =
      .ok ([.token (.at (Position.start.after before) (read (c :: taken)).1 (read (c :: taken)).2
          (c :: taken))],
        between (before ++ c :: taken) rest) := by
  have inLine : '\n' ∉ c :: taken := fun member => by
    rw [passes _ member] at noBreak
    cases noBreak
  have ends : accepts (rest.head?.getD endMark) = false := by
    cases rest with
    | nil => exact noMark
    | cons d rest => exact stops d rfl
  obtain ⟨last, advances, -, fragment, token⟩ :=
    @advance_run _ _ (fun next => accepts (next.getD endMark)) _ _ short
      (List.forall_mem_cons.1 passes).2 ends inLine
  unfold run peek
  rw [place_cons, advances, Checked.ok_bind, fragment, Checked.ok_bind]
  dsimp only
  rw [token, Checked.ok_bind]

theorem word_between {letters : List Char} (fits : (Piece.word letters).Fits rest)
    (short : Short (before ++ (letters ++ rest))) :
    (between before (letters ++ rest)).word (before ++ (letters ++ rest)) =
      .ok (Finding.ofPiece (Position.start.after before) (.word letters),
        between (before ++ letters) rest) := by
  obtain ⟨⟨c, taken, rfl, isFirst⟩, passes, stops⟩ := fits
  have reads := run_between short passes stops (by decide) (by decide) readWord
  rw [word, List.cons_append, current_cons, Checked.assert_of_true isFirst, Checked.ok_bind, reads]
  rfl

theorem number_between {digits : List Char} (fits : (Piece.number digits).Fits rest)
    (short : Short (before ++ (digits ++ rest))) :
    (between before (digits ++ rest)).number (before ++ (digits ++ rest)) =
      .ok (Finding.ofPiece (Position.start.after before) (.number digits),
        between (before ++ digits) rest) := by
  obtain ⟨inhabited, passes, stops⟩ := fits
  obtain ⟨c, taken, rfl⟩ := List.exists_cons_of_ne_nil inhabited
  have isFirst := passes c List.mem_cons_self
  have reads := run_between short passes stops (by decide) (by decide) readNumber
  rw [number, List.cons_append, current_cons, Checked.assert_of_true isFirst, Checked.ok_bind,
    reads]
  rfl

theorem quote_size : (String.ofList ['"']).utf8ByteSize = 1 := by
  decide

theorem stringBody_open (body : List Char) : stringBody false ('"' :: body) = .ok body := by
  have size : (String.ofList ('"' :: body)).utf8ByteSize =
      (String.ofList ['"']).utf8ByteSize + (String.ofList body).utf8ByteSize := by
    rw [← String.utf8ByteSize_append, ← String.ofList_append]
    rfl
  have whole := Checked.slice_append ['"'] body []
  rw [List.append_nil, ← size, quote_size] at whole
  exact whole

theorem stringBody_closed (body : List Char) :
    stringBody true ('"' :: (body ++ ['"'])) = .ok body := by
  have size : (String.ofList ('"' :: (body ++ ['"']))).utf8ByteSize =
      (String.ofList ['"']).utf8ByteSize + (String.ofList body).utf8ByteSize + 1 := by
    rw [← quote_size, ← String.utf8ByteSize_append, ← String.utf8ByteSize_append,
      ← String.ofList_append, ← String.ofList_append]
    rfl
  have whole := Checked.slice_append ['"'] body ['"']
  rw [quote_size] at whole
  rw [stringBody, size, if_pos rfl, Checked.sub, if_pos (Nat.le_add_left _ _), Checked.ok_bind,
    Nat.add_sub_cancel, quote_size]
  exact whole

theorem openString_between {body : List Char} (fits : (Piece.openString body).Fits rest)
    (short : Short (before ++ ('"' :: body ++ rest))) :
    (between before ('"' :: body ++ rest)).string (before ++ ('"' :: body ++ rest)) =
      .ok (Finding.ofPiece (Position.start.after before) (.openString body),
        between (before ++ '"' :: body) rest) := by
  obtain ⟨noQuote, noBreak, stops⟩ := fits
  have inLine : '\n' ∉ '"' :: body := by simpa using noBreak
  have ends : rest.head?.any Piece.inString = false ∧ (rest.head? == some '"') = false := by
    cases rest with
    | nil => exact ⟨rfl, rfl⟩
    | cons d rest =>
      obtain rfl := stops d rfl
      exact ⟨rfl, rfl⟩
  obtain ⟨last, advances, next, fragment, token⟩ :=
    advance_run short (Piece.inString_of_notMem noQuote noBreak) ends.1 inLine
  unfold string
  rw [List.cons_append, current_cons, place_cons, Checked.assert_of_true (decide_eq_true rfl),
    Checked.ok_bind, advances, Checked.ok_bind, next, ends.2]
  dsimp only
  rw [if_neg Bool.false_ne_true, Checked.ok_bind, fragment, Checked.ok_bind, stringBody_open,
    Checked.ok_bind, token]
  rfl

theorem closedString_between {body : List Char} (fits : (Piece.closedString body).Fits rest)
    (short : Short (before ++ ('"' :: (body ++ ['"']) ++ rest))) :
    (between before ('"' :: (body ++ ['"']) ++ rest)).string
        (before ++ ('"' :: (body ++ ['"']) ++ rest)) =
      .ok (Finding.ofPiece (Position.start.after before) (.closedString body),
        between (before ++ '"' :: (body ++ ['"'])) rest) := by
  obtain ⟨noQuote, noBreak⟩ := fits
  have inLine : ∀ c ∈ '"' :: body, c ≠ '\n' := by
    rintro c member rfl
    exact (List.mem_cons.1 member).elim (by decide) noBreak
  have spelt : '"' :: (body ++ ['"']) ++ rest = '"' :: body ++ '"' :: rest := by simp
  have here : Short (before ++ ('"' :: body ++ '"' :: rest)) := spelt ▸ short
  have inString := Piece.inString_of_notMem noQuote noBreak
  obtain ⟨run, last, split, advances⟩ :=
    @advanceWhile_peek _ _ (fun next => next.any Piece.inString) _ _ here inString rfl
  have moves := @next_between (before ++ run) ('"' :: rest) last
    (by rw [split] at here; simpa using here)
  rw [List.append_assoc before run, ← split] at moves
  have quoted : '"' :: (body ++ ['"']) = '"' :: body ++ ['"'] := rfl
  have fragment := fragment_between quoted short
  have token := token_between quoted short inLine
  rw [spelt] at fragment token
  have next : ((between (before ++ run) (last :: '"' :: rest)).peek? == some '"') = true := rfl
  unfold string
  rw [spelt, List.cons_append, current_cons, place_cons,
    Checked.assert_of_true (decide_eq_true rfl), Checked.ok_bind, ← List.cons_append, advances,
    Checked.ok_bind, next]
  dsimp only
  rw [if_pos rfl, moves, Checked.ok_bind, fragment, Checked.ok_bind, stringBody_closed,
    Checked.ok_bind, token]
  rfl

theorem single_symbol {mark : Symbol} (short : Short (before ++ ([mark.char] ++ rest))) :
    (between before (mark.char :: rest)).single (before ++ ([mark.char] ++ rest)) =
      .ok (Finding.ofPiece (Position.start.after before) (.symbol mark),
        between (before ++ [mark.char]) rest) := by
  have token := token_between (List.nil_append [mark.char]).symm short
    (fun c member => absurd member List.not_mem_nil) (.symbol mark) none
  rw [List.append_nil] at token
  unfold single
  rw [current_cons, place_cons, Symbol.ofChar?_char]
  dsimp only
  rw [token]
  rfl

theorem single_stray {c : Char} (fits : (Piece.stray c).Fits rest)
    (short : Short (before ++ c :: rest)) (source : List Char) :
    (between before (c :: rest)).single source =
      .ok (Finding.ofPiece (Position.start.after before) (.stray c),
        between (before ++ [c]) rest) := by
  obtain ⟨-, -, -, noMark⟩ := fits
  unfold single
  rw [current_cons, Piece.ofChar?_eq_none noMark]
  dsimp only
  rw [next_between short]
  rfl

/-- Where no blank, no comment and no string begins. -/
theorem piece_plain {c : Char} (notBlank : Piece.isBlank c = false) (noQuote : c ≠ '"')
    (noComment : c = '/' → ∀ d ∈ rest.head?, d ≠ '/' ∧ d ≠ '*') (source : List Char) :
    (between before (c :: rest)).piece source =
      if c.isDigit then (between before (c :: rest)).number source
      else if Piece.isLetter c then (between before (c :: rest)).word source
      else (between before (c :: rest)).single source := by
  have next : c = '/' → (between before (c :: rest)).peek ≠ '/' ∧
      (between before (c :: rest)).peek ≠ '*' := by
    intro slash
    cases rest with
    | nil => exact (by decide : endMark ≠ '/' ∧ endMark ≠ '*')
    | cons d rest => exact noComment slash d rfl
  rw [piece, current_cons, notBlank, if_neg Bool.false_ne_true,
    if_neg fun both => (next both.1).1 both.2, if_neg fun both => (next both.1).2 both.2,
    if_neg noQuote]

theorem piece_wordChar {c : Char} (isChar : Piece.isWordChar c = true) (source : List Char) :
    (between before (c :: rest)).piece source =
      if c.isDigit then (between before (c :: rest)).number source
      else if Piece.isLetter c then (between before (c :: rest)).word source
      else (between before (c :: rest)).single source := by
  refine piece_plain ?_ ?_ (fun slash => ?_) source
  · by_contra blank
    obtain rfl | rfl | rfl | rfl := Piece.isBlank_iff.1 (Bool.not_eq_false _ ▸ blank) <;>
      contradiction
  · rintro rfl
    contradiction
  · subst slash
    contradiction

/-- Whatever a text begins with, the cursor finds it and goes behind it. -/
theorem piece_between {piece : Piece} (fits : piece.Fits rest)
    (short : Short (before ++ (piece.text ++ rest))) :
    (between before (piece.text ++ rest)).piece (before ++ (piece.text ++ rest)) =
      .ok (Finding.ofPiece (Position.start.after before) piece,
        between (before ++ piece.text) rest) := by
  cases piece with
  | blank c =>
    have isBlank := Piece.isBlank_iff.2 fits
    simp only [Piece.text, List.cons_append, List.nil_append] at short ⊢
    rw [Cursor.piece, current_cons, if_pos isBlank, next_between short]
    rfl
  | lineComment body => exact lineComment_between fits short
  | blockComment body => exact blockComment_between fits short
  | openComment body => exact openComment_between fits short
  | word letters =>
    have holds := fits
    obtain ⟨⟨c, taken, rfl, isFirst⟩, passes, -⟩ := holds
    have notDigit : ¬c.isDigit = true := fun digit => by
      rw [Piece.isLetter_of_isDigit digit] at isFirst
      contradiction
    show (between before (c :: (taken ++ rest))).piece _ = _
    rw [piece_wordChar (passes c List.mem_cons_self), if_neg notDigit, if_pos isFirst]
    exact word_between fits short
  | number digits =>
    have holds := fits
    obtain ⟨inhabited, passes, -⟩ := holds
    obtain ⟨c, taken, rfl⟩ := List.exists_cons_of_ne_nil inhabited
    have isFirst := passes c List.mem_cons_self
    have isChar : Piece.isWordChar c = true := by rw [Piece.isWordChar, isFirst, Bool.or_true]
    show (between before (c :: (taken ++ rest))).piece _ = _
    rw [piece_wordChar isChar, if_pos isFirst]
    exact number_between fits short
  | closedString body => exact closedString_between fits short
  | openString body => exact openString_between fits short
  | symbol mark =>
    have plain : Piece.isBlank mark.char = false ∧ mark.char ≠ '"' ∧ mark.char.isDigit = false ∧
        Piece.isLetter mark.char = false ∧ (mark.char = '/' → mark = .slash) := by
      cases mark <;> decide
    obtain ⟨notBlank, noQuote, notDigit, notLetter, slash⟩ := plain
    show (between before (mark.char :: rest)).piece _ = _
    rw [piece_plain notBlank noQuote (fits ∘ slash), notDigit, notLetter]
    exact single_symbol short
  | stray c =>
    have holds := fits
    obtain ⟨notBlank, notChar, noQuote, noMark⟩ := holds
    obtain ⟨notLetter, notDigit⟩ := Bool.or_eq_false_iff.1 notChar
    show (between before (c :: rest)).piece _ = _
    rw [piece_plain notBlank noQuote fun slash => absurd slash.symm (noMark .slash), notDigit,
      notLetter]
    exact single_stray fits short _

/-- From between two parts of a text on, what is in the second part is found. -/
theorem scanOnto_between (found : Array Finding) (short : Short (before ++ text)) :
    (between before text).scanOnto (before ++ text) found =
      .ok (Finding.ofPiecesOnto found (Position.start.after before) (Piece.cut text)) := by
  -- A piece may take many characters, but it takes one at least.
  induction size : text.length using Nat.strongRecOn generalizing before text found with
  | ind n ih =>
    cases text with
    | nil =>
      rw [scanOnto, atEnd_nil, Piece.cut_nil]
      rfl
    | cons c rest =>
      have shorter := size ▸ Piece.first_length c rest
      have whole := Piece.first_text c rest
      have fits := Piece.fits_first c rest
      rcases isFirst : Piece.first c rest with ⟨piece, behind⟩
      rw [isFirst] at shorter whole fits
      rw [← whole] at short
      have further := @ih _ shorter (before ++ piece.text) behind
        (found ++ Finding.ofPiece (Position.start.after before) piece)
        (by rwa [List.append_assoc]) rfl
      have moved : behind.length < (c :: rest).length := size.symm ▸ shorter
      have finds := piece_between fits short
      rw [whole] at finds
      rw [List.append_assoc, whole, Position.after_append] at further
      rw [scanOnto, atEnd_cons, if_neg Bool.false_ne_true, finds]
      dsimp only
      rw [left_between, left_between, if_pos moved, further, Piece.cut_cons, isFirst]
      rfl

end Cursor

/-- Going through a source with a cursor comes to no fault, if its bytes can be counted with one to
spare, and finds what is in the source. -/
theorem Finding.scan_eq {source : String} (short : source.utf8ByteSize + 1 < 2 ^ 32) :
    scan source = .ok (ofSource source) := by
  have fits : Short ([] ++ source.toList) := by
    rwa [List.nil_append, Short, String.ofList_toList]
  have finds := Cursor.scanOnto_between #[] fits
  rw [List.nil_append] at finds
  rw [scan, Cursor.next_ofText, Checked.ok_bind, finds]
  rfl

end Jack
