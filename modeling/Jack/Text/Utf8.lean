namespace Jack.Text

/-- A break in a text: how many bytes before it are whole characters, and how many of those behind
them begin a character that does not go on. No number means that the bytes end inside one. -/
structure Utf8Error where
  validUpTo : Nat
  errorLength : Option Nat
deriving DecidableEq, Repr

def Utf8Error.message (error : Utf8Error) : String :=
  match error.errorLength with
  | some length => s!"invalid utf-8 sequence of {length} bytes from index {error.validUpTo}"
  | none => s!"incomplete utf-8 byte sequence from index {error.validUpTo}"

namespace Utf8

/-- Both ends of a range of bytes belong to it. -/
abbrev Range := Nat × Nat

/-- The bytes that may come second and later in a character, without a narrower rule. -/
def tail : Range := (0x80, 0xBF)

/-- What a byte brings to the character that it begins, and the ranges of the bytes behind it. The
narrower ranges shut out long forms, surrogates and numbers past the last character. -/
def lead? (byte : Nat) : Option (Nat × List Range) :=
  if byte ≤ 0x7F then some (byte, [])
  else if byte < 0xC2 then none
  else if byte ≤ 0xDF then some (byte - 0xC0, [tail])
  else if byte = 0xE0 then some (0, [(0xA0, 0xBF), tail])
  else if byte = 0xED then some (0xD, [(0x80, 0x9F), tail])
  else if byte ≤ 0xEF then some (byte - 0xE0, [tail, tail])
  else if byte = 0xF0 then some (0, [(0x90, 0xBF), tail, tail])
  else if byte ≤ 0xF3 then some (byte - 0xF0, [tail, tail, tail])
  else if byte = 0xF4 then some (4, [(0x80, 0x8F), tail, tail])
  else none

/-- Reads on in the middle of a text: the characters so far and their number of bytes, what the
current character amounts to so far and its number of bytes, and the ranges of the bytes that it
still needs. -/
def readOnto (text : String) (start value taken : Nat) :
    List Range → List UInt8 → Except Utf8Error String
  | [], [] => .ok text
  | _ :: _, [] => .error ⟨start, none⟩
  | [], byte :: bytes =>
    match lead? byte.toNat with
    | none => .error ⟨start, some 1⟩
    | some (value, []) => readOnto (text.push (Char.ofNat value)) (start + 1) 0 0 [] bytes
    | some (value, ranges) => readOnto text start value 1 ranges bytes
  | (low, high) :: ranges, byte :: bytes =>
    if low ≤ byte.toNat ∧ byte.toNat ≤ high then
      let value := value * 64 + (byte.toNat - 0x80)
      match ranges with
      | [] => readOnto (text.push (Char.ofNat value)) (start + taken + 1) 0 0 [] bytes
      | ranges => readOnto text start value (taken + 1) ranges bytes
    else .error ⟨start, some taken⟩

/-- The text that bytes stand for. -/
def decode (bytes : ByteArray) : Except Utf8Error String :=
  readOnto "" 0 0 0 [] bytes.toList

end Utf8

end Jack.Text
