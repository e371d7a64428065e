namespace Jack

/-- A place in a source text: the bytes before it, its line and its column. Lines and columns
count from one, and a column counts characters. -/
structure Position where
  offset : Nat
  line : Nat
  column : Nat
deriving DecidableEq, Repr

namespace Position

def start : Position := ⟨0, 1, 1⟩

/-- The place behind a character. The line goes up only behind a newline, so a newline itself
still stands on the line that it ends. -/
def next (place : Position) (c : Char) : Position :=
  if c = '\n' then ⟨place.offset + c.utf8Size, place.line + 1, 1⟩
  else ⟨place.offset + c.utf8Size, place.line, place.column + 1⟩

def after (place : Position) (text : List Char) : Position :=
  text.foldl next place

theorem after_append (place : Position) (first last : List Char) :
    place.after (first ++ last) = (place.after first).after last := by
  simp [after]

end Position

/-- A stretch of bytes in 32-bit numbers: where it begins and how long it is. -/
structure Span where
  index : UInt32
  size : UInt32
deriving DecidableEq, Repr

namespace Span

/-- The byte behind the stretch. The sum wraps around. -/
def stop (span : Span) : UInt32 :=
  span.index + span.size

/-- The text behind its first bytes, if their number ends on the edge of a character. -/
def dropBytes : Nat → List Char → Option (List Char)
  | 0, text => some text
  | _ + 1, [] => none
  | count + 1, c :: text =>
    if c.utf8Size ≤ count + 1 then dropBytes (count + 1 - c.utf8Size) text else none

/-- The characters under a stretch. There are none if its end lies before its start, as it does
when the sum wrapped around, or if either edge cuts a character or lies outside the text. -/
def fragment? (span : Span) (text : List Char) : Option (List Char) :=
  if span.stop < span.index then none
  else do
    let tail ← dropBytes span.index.toNat text
    let rest ← dropBytes (span.stop.toNat - span.index.toNat) tail
    return tail.take (tail.length - rest.length)

end Span

end Jack
