import Jack.Proofs.Partition

namespace Jack

/-- What a checked operation stops for. -/
inductive Fault where
  /-- A number too large for its word. -/
  | overflow
  /-- A number below zero. -/
  | underflow
  /-- A stretch outside of a text, or one that cuts a character. -/
  | slice
  /-- Something that was taken for granted and does not hold. -/
  | assertion
  /-- A place that was taken to be out of reach. -/
  | unreachable
  /-- A loop that goes round without moving on. -/
  | stuck
deriving DecidableEq, Repr

abbrev Checked := Except Fault

namespace Checked

/-- A word of 32 bits counts up. -/
def succ (count : Nat) : Checked Nat :=
  if count + 1 < 2 ^ 32 then .ok (count + 1) else .error .overflow

def pred : Nat → Checked Nat
  | 0 => .error .underflow
  | count + 1 => .ok count

def sub (first second : Nat) : Checked Nat :=
  if second ≤ first then .ok (first - second) else .error .underflow

/-- A number that counts bytes in memory, in a word of 64 bits. -/
def size (number : Nat) : Checked Nat :=
  if number < 2 ^ 64 then .ok number else .error .overflow

/-- A number as a word of 32 bits. -/
def word (number : Nat) : Checked UInt32 :=
  if number < 2 ^ 32 then .ok number.toUInt32 else .error .overflow

def add (first second : UInt32) : Checked UInt32 :=
  if first.toNat + second.toNat < 2 ^ 32 then .ok (first + second) else .error .overflow

def assert (condition : Bool) : Checked Unit :=
  if condition then .ok () else .error .assertion

/-- The characters between two bytes of a text. -/
def slice (text : List Char) (start stop : Nat) : Checked (List Char) := do
  let size ← if start ≤ stop then .ok (stop - start) else .error .slice
  match Span.dropBytes start text with
  | none => .error .slice
  | some tail =>
    match Span.dropBytes size tail with
    | none => .error .slice
    | some rest => .ok (tail.take (tail.length - rest.length))

end Checked

/-- A cursor in a text, at a character or behind the last one. -/
structure Cursor where
  /-- The characters behind the current one. -/
  rest : List Char
  /-- The byte where these begin. -/
  ahead : Nat
  offset : Nat
  current : Char
  /-- How many bytes the text has. -/
  size : Nat
  line : Nat
  column : Nat

namespace Cursor

/-- What stands for the current character behind the last one. -/
def endMark : Char := '\x00'

/-- A cursor in front of a text. -/
def ofText (source : String) : Cursor where
  rest := source.toList
  ahead := 0
  offset := 0
  current := endMark
  size := source.utf8ByteSize
  line := 1
  column := 0

def atEnd (cursor : Cursor) : Bool :=
  cursor.size ≤ cursor.offset

/-- The character behind the current one. -/
def peek? (cursor : Cursor) : Option Char :=
  cursor.rest.head?

def peek (cursor : Cursor) : Char :=
  cursor.peek?.getD endMark

/-- The byte behind the current character. -/
def peekOffset (cursor : Cursor) : Checked Nat :=
  if cursor.atEnd then .ok cursor.size
  else Checked.size (cursor.offset + cursor.current.utf8Size)

/-- Line and column in front of the next character. Behind a newline a line begins. -/
def leave (cursor : Cursor) : Checked (Nat × Nat) :=
  if cursor.current = '\n' ∧ cursor.atEnd = false then do
    let line ← Checked.succ cursor.line
    .ok (line, 0)
  else .ok (cursor.line, cursor.column)

/-- Moves on by one character. -/
def next (cursor : Cursor) : Checked Cursor := do
  let (line, column) ← cursor.leave
  match cursor.rest with
  | [] => .ok { cursor with offset := cursor.size, current := endMark, line, column }
  | c :: rest =>
    let column ← Checked.succ column
    .ok { cursor with
      rest, line, column
      ahead := cursor.ahead + c.utf8Size
      offset := cursor.ahead
      current := c }

/-- How many characters there are from the current one on. -/
def left (cursor : Cursor) : Nat :=
  cursor.rest.length + if cursor.atEnd then 0 else 1

/-- Moves on as long as a test holds. -/
def advanceWhile (test : Cursor → Bool) (cursor : Cursor) : Checked Cursor :=
  if test cursor then
    match cursor.next with
    | .error fault => .error fault
    | .ok later => if later.left < cursor.left then advanceWhile test later else .error .stuck
  else .ok cursor
termination_by cursor.left

/-- The place of the current character. -/
def place (cursor : Cursor) : Position :=
  ⟨cursor.offset, cursor.line, cursor.column⟩

/-- The cursor between two parts of a text, at the first character of the second. -/
def between (before : List Char) : List Char → Cursor
  | [] =>
    let place := Position.start.after before
    ⟨[], place.offset, place.offset, endMark, place.offset, place.line, place.column - 1⟩
  | c :: rest =>
    let place := Position.start.after before
    ⟨rest, place.offset + c.utf8Size, place.offset, c, (place.after (c :: rest)).offset, place.line,
      place.column⟩

end Cursor

theorem Position.offset_next (place : Position) (c : Char) :
    (place.next c).offset = place.offset + c.utf8Size := by
  unfold next
  split <;> rfl

/-- Lines and columns are counted from one, and each goes up by a byte at least. -/
theorem Position.le_offset {place : Position} (text : List Char)
    (line : place.line ≤ place.offset + 1) (column : place.column ≤ place.offset + 1) :
    (place.after text).line ≤ (place.after text).offset + 1 ∧
      (place.after text).column ≤ (place.after text).offset + 1 := by
  induction text generalizing place with
  | nil => exact ⟨line, column⟩
  | cons c text ih =>
    have positive := c.utf8Size_pos
    refine ih ?_ ?_ <;> unfold next <;> split <;> dsimp only <;> omega

/-- Whether a text has so few bytes that its lines, its columns and its last byte can all be counted
in words of 32 bits. -/
def Short (text : List Char) : Prop :=
  (String.ofList text).utf8ByteSize + 1 < 2 ^ 32

theorem Checked.ok_bind {α β : Type} (value : α) (next : α → Checked β) :
    ((.ok value : Checked α) >>= next) = next value :=
  rfl

theorem Checked.succ_of_lt {count : Nat} (fits : count + 1 < 2 ^ 32) :
    succ count = .ok (count + 1) :=
  if_pos fits

namespace Cursor

variable {before rest text : List Char} {c : Char} {test : Cursor → Bool}

theorem offset_start (text : List Char) :
    (Position.start.after text).offset = (String.ofList text).utf8ByteSize := by
  rw [Position.offset_after]
  exact Nat.zero_add _

theorem atEnd_cons (before : List Char) (c : Char) (rest : List Char) :
    (between before (c :: rest)).atEnd = false := by
  have positive := c.utf8Size_pos
  simp only [atEnd, between, Position.offset_after, String.ofList_cons, String.utf8ByteSize_append,
    String.utf8ByteSize_singleton, decide_eq_false_iff_not]
  omega

theorem atEnd_nil (before : List Char) : (between before []).atEnd = true :=
  decide_eq_true (Nat.le_refl _)

theorem left_between (before text : List Char) : (between before text).left = text.length := by
  cases text with
  | nil => rw [left, atEnd_nil]; rfl
  | cons c rest => rw [left, atEnd_cons]; rfl

theorem leave_between (line : (Position.start.after before).line + 1 < 2 ^ 32) :
    (between before (c :: rest)).leave =
      .ok (((Position.start.after before).next c).line,
        ((Position.start.after before).next c).column - 1) := by
  have current : (between before (c :: rest)).current = c := rfl
  unfold leave Position.next
  rw [atEnd_cons, current]
  split
  · rename_i isBreak
    rw [if_pos isBreak.1]
    exact congrArg (· >>= fun line => .ok (line, 0)) (Checked.succ_of_lt line)
  · rename_i noBreak
    rw [if_neg fun same => noBreak ⟨same, rfl⟩]
    rfl

/-- Behind each character of a short text the line and the column are words of 32 bits. -/
theorem counts_of_short (short : Short (before ++ c :: rest)) :
    (Position.start.after before).line + 1 < 2 ^ 32 ∧
      0 < ((Position.start.after before).next c).column ∧
      ((Position.start.after before).next c).column < 2 ^ 32 := by
  have positive := c.utf8Size_pos
  obtain ⟨line, column⟩ := @Position.le_offset .start before (Nat.le_refl 1) (Nat.le_refl 1)
  rw [offset_start] at line column
  simp only [Short, String.ofList_append, String.utf8ByteSize_append, String.ofList_cons,
    String.utf8ByteSize_singleton] at short
  refine ⟨by omega, ?_, ?_⟩ <;> unfold Position.next <;> split <;> dsimp only <;> omega

/-- Moving on from a character of a short text. -/
theorem next_between (short : Short (before ++ c :: rest)) :
    (between before (c :: rest)).next = .ok (between (before ++ [c]) rest) := by
  obtain ⟨line, positive, column⟩ := counts_of_short short
  have offset := (Position.start.after before).offset_next c
  have behind : Position.start.after (before ++ [c]) = (Position.start.after before).next c :=
    Position.after_append ..
  unfold next
  rw [leave_between line]
  cases rest with
  | nil =>
    have later : between (before ++ [c]) [] =
        { between before [c] with
          offset := (between before [c]).size
          current := endMark
          line := ((Position.start.after before).next c).line
          column := ((Position.start.after before).next c).column - 1 } := by
      simp only [between, behind, ← offset]
      rfl
    rw [later]
    rfl
  | cons d rest =>
    have later : between (before ++ [c]) (d :: rest) =
        { between before (c :: d :: rest) with
          rest
          ahead := (Position.start.after before).offset + c.utf8Size + d.utf8Size
          offset := (Position.start.after before).offset + c.utf8Size
          current := d
          line := ((Position.start.after before).next c).line
          column := ((Position.start.after before).next c).column } := by
      simp only [between, behind, offset]
      rfl
    show (Checked.succ (((Position.start.after before).next c).column - 1) >>= fun _ => _) = _
    rw [later, Checked.succ_of_lt (by omega), Nat.sub_add_cancel positive]
    rfl

/-- The cursor goes on to the first character in front of which the test does not hold. -/
theorem advanceWhile_between {run : List Char} (short : Short (before ++ (run ++ rest)))
    (goesOn : ∀ front c back, run = front ++ c :: back →
      test (between (before ++ front) (c :: (back ++ rest))) = true)
    (stops : test (between (before ++ run) rest) = false) :
    (between before (run ++ rest)).advanceWhile test = .ok (between (before ++ run) rest) := by
  induction run generalizing before with
  | nil =>
    rw [List.append_nil] at stops ⊢
    rw [List.nil_append, advanceWhile, stops]
    rfl
  | cons c run ih =>
    have here := goesOn [] c run rfl
    rw [List.append_nil] at here
    have shorter : (run ++ rest).length < (c :: (run ++ rest)).length := Nat.lt_succ_self _
    rw [List.append_cons] at stops
    rw [List.cons_append] at short
    rw [List.cons_append, advanceWhile, here, if_pos rfl, next_between short]
    dsimp only
    rw [left_between, left_between, if_pos shorter, List.append_cons before c run]
    refine ih (by rwa [List.append_assoc]) (fun front d back isRun => ?_) stops
    have later := goesOn (c :: front) d back (congrArg (c :: ·) isRun)
    rwa [List.append_cons] at later

/-- At first the cursor moves to the beginning of the text. -/
theorem next_ofText (source : String) :
    (ofText source).next = .ok (between [] source.toList) := by
  have size : source.utf8ByteSize = (Position.start.after source.toList).offset := by
    rw [offset_start, String.ofList_toList]
  have notBreak : endMark ≠ '\n' := by decide
  have leaves : (ofText source).leave = .ok (1, 0) := if_neg fun same => notBreak same.1
  unfold next
  rw [leaves]
  simp only [ofText, size]
  cases source.toList with
  | nil => rfl
  | cons c rest =>
    show (Checked.succ 0 >>= fun _ => _) = _
    rw [Checked.succ_of_lt (by decide)]
    simp only [between, Position.start, Position.after, List.foldl_nil]
    rfl

end Cursor

/-- A stretch between the edges of characters is cut out as it is. -/
theorem Checked.slice_append (before text rest : List Char) :
    slice (before ++ (text ++ rest)) (String.ofList before).utf8ByteSize
      ((String.ofList before).utf8ByteSize + (String.ofList text).utf8ByteSize) = .ok text := by
  unfold slice
  rw [if_pos (Nat.le_add_right _ _), Nat.add_sub_cancel_left]
  show (match Span.dropBytes _ _ with | none => _ | some tail => _) = _
  rw [Span.dropBytes_append rfl]
  dsimp only
  rw [Span.dropBytes_append rfl]
  dsimp only
  rw [List.length_append, Nat.add_sub_cancel, List.take_left]

example : Checked.slice ['a', 'é', 'b'] 2 3 = .error .slice := by decide

end Jack
