import Jack.Text.Digits
import Jack.Yaml.Placed

namespace Jack.Yaml

/-- The characters of a tag. A list or mapping around it does not end one written in full. -/
def isTagChar (inFull : Bool) (c : Char) : Bool :=
  isNameChar c || ";/?:@&=+$.%!~*'()".toList.contains c
    || (inFull && (c == ',' || c == '[' || c == ']'))

/-- How many bytes follow the first one of a character. -/
def following? (byte : Nat) : Option Nat :=
  if byte < 0x80 then some 0
  else if byte < 0xC0 then none
  else if byte < 0xE0 then some 1
  else if byte < 0xF0 then some 2
  else if byte < 0xF8 then some 3
  else none

/-- The bytes that the characters of a tag stand for. A percent sign stands before the digits of a
byte, and all bytes of one character are written in the same way. -/
def bytes? (missing : Nat) : List Char → Option (List Nat)
  | [] => if missing = 0 then some [] else none
  | '%' :: high :: low :: rest => do
    let byte := (← Text.Digits.digit? high) * 16 + (← Text.Digits.digit? low)
    if missing = 0 then return byte :: (← bytes? (← following? byte) rest)
    else if 0x80 ≤ byte ∧ byte < 0xC0 then return byte :: (← bytes? (missing - 1) rest)
    else none
  | c :: rest => if missing = 0 ∧ c ≠ '%' then (c.toNat :: ·) <$> bytes? 0 rest else none

/-- The name that characters stand for. It ends before a zero byte. -/
def tagName? (text : List Char) : Option (List Nat) :=
  (bytes? 0 text).map (List.takeWhile (· ≠ 0))

def bytesOf (text : String) : List Nat :=
  text.toUTF8.toList.map UInt8.toNat

/-- A tag with its whole name, or with a handle and the end of its name. -/
inductive Tag where
  | full (name : List Nat)
  | short (handle : String) (name : List Nat)
deriving DecidableEq, Repr

/-- What handles stand for. -/
abbrev Handles := List (String × List Nat)

/-- The handles that need not be declared. -/
def Handles.default : Handles :=
  [("!", bytesOf "!"), ("!!", bytesOf "tag:yaml.org,2002:")]

def Tag.resolve? (handles : Handles) : Tag → Option (List Nat)
  | full name => some name
  | short handle name => (handles.lookup handle).map (· ++ name)

/-- The tag of whole numbers. -/
def Tag.integer : List Nat :=
  bytesOf "tag:yaml.org,2002:int"

/-- A tag written in full, behind its opening bracket. -/
def fullTag? (text : List Placed) : Option (Tag × Nat) := do
  let name := Placed.run (isTagChar true) text
  if name ≠ [] ∧ Placed.hasNext (· == '>') (text.drop name.length) then
    return (.full (← tagName? name), name.length + 1)
  else none

/-- A tag with a handle, behind its first mark. The handle between two marks has a name of its
own or none, and an exclamation mark alone is a tag too. -/
def shortTag? (text : List Placed) : Option (Tag × Nat) := do
  let handle := Placed.run isNameChar text
  if Placed.hasNext (· == '!') (text.drop handle.length) then
    let name := Placed.run (isTagChar false) (text.drop (handle.length + 1))
    if name = [] then none
    else
      return (.short (String.ofList ('!' :: (handle ++ ['!']))) (← tagName? name),
        handle.length + 1 + name.length)
  else
    let text := Placed.run (isTagChar false) text
    let name ← tagName? text
    return (if name = [] then .full (bytesOf "!") else .short "!" name, text.length)

/-- A tag, behind its first mark, and how many characters it takes there. -/
def readTag? (inFlow : Bool) (text : List Placed) : Option (Tag × Nat) := do
  let (tag, size) ←
    if Placed.hasNext (· == '<') text then
      (fullTag? (text.drop 1)).map fun (tag, size) => (tag, size + 1)
    else shortTag? text
  if Placed.endsOr (fun c => isSpacing c || (inFlow && c == ',')) (text.drop size) then
    return (tag, size)
  else none

inductive Directive where
  | version (major minor : Nat)
  | handle (handle : String) (name : List Nat)
deriving DecidableEq, Repr

namespace Directive

/-- The most digits that a number of a version has. -/
def maxDigits : Nat := 9

/-- A number at the front of a line, and what stands behind it. -/
def splitNumber? (line : List Char) : Option (Nat × List Char) := do
  let digits := line.takeWhile Char.isDigit
  if digits.length ≤ maxDigits then
    return (← Text.Digits.word? 10 digits, line.drop digits.length)
  else none

def version? (line : List Char) : Option Directive := do
  match ← splitNumber? (line.dropWhile isBlank) with
  | (major, '.' :: line) =>
    let (minor, line) ← splitNumber? line
    if isLineEnd line then return .version major minor else none
  | _ => none

/-- The handle at the front of a line, and what stands behind it. -/
def splitHandle? : List Char → Option (String × List Char)
  | '!' :: line =>
    let name := line.takeWhile isNameChar
    match line.drop name.length with
    | '!' :: rest => some (String.ofList ('!' :: (name ++ ['!'])), rest)
    | rest => if name = [] then some ("!", rest) else none
  | _ => none

def handle? (line : List Char) : Option Directive := do
  match ← splitHandle? (line.dropWhile isBlank) with
  | (declared, c :: line) =>
    if isBlank c then
      let line := line.dropWhile isBlank
      let name := line.takeWhile (isTagChar true)
      let rest := line.drop name.length
      if name ≠ [] ∧ rest.head?.all isBlank ∧ isLineEnd rest then
        return .handle declared (← tagName? name)
      else none
    else none
  | _ => none

/-- The directive on a line, behind its mark. -/
def ofLine? (line : List Char) : Option Directive :=
  let name := line.takeWhile isNameChar
  let rest := line.drop name.length
  if rest.head?.all isBlank then
    if name = "YAML".toList then version? rest
    else if name = "TAG".toList then handle? rest
    else none
  else none

end Directive

end Jack.Yaml
