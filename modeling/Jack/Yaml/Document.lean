import Jack.Yaml.Part

namespace Jack.Yaml

namespace Part

/-- Gives a name the next number, also if it has one already. -/
def renumber (numbers : List (String × Nat)) (name : String) : List (String × Nat) :=
  (name, numbers.length) :: numbers.filter (·.1 != name)

/-- The parts with numbers in place of the names of their anchors. An anchor's number is how many
names have one already, and a name that comes again gets a new number. An alias has to come behind
the anchor that it names. -/
def numbered? (numbers : List (String × Nat)) : List (Part String) → Option (List (Part Nat))
  | [] => some []
  | .scalar none text :: rest => (.scalar none text :: ·) <$> numbered? numbers rest
  | .opening none kind :: rest => (.opening none kind :: ·) <$> numbered? numbers rest
  | .closing :: rest => (.closing :: ·) <$> numbered? numbers rest
  | .reference name :: rest => do
    return .reference (← numbers.lookup name) :: (← numbered? numbers rest)
  | .scalar (some name) text :: rest =>
    (.scalar (some numbers.length) text :: ·) <$> numbered? (renumber numbers name) rest
  | .opening (some name) kind :: rest =>
    (.opening (some numbers.length) kind :: ·) <$> numbered? (renumber numbers name) rest

variable {Name : Type}

def anchor? : Part Name → Option Name
  | scalar anchor _ | opening anchor _ => anchor
  | reference _ | closing => none

/-- The parts that are not within others, from some depth on. -/
def outermost : Nat → List (Part Name) → List (Part Name)
  | _, [] => []
  | 0, part :: rest =>
    match part with
    | opening .. => part :: outermost 1 rest
    | closing => outermost 0 rest
    | scalar .. | reference _ => part :: outermost 0 rest
  | depth + 1, part :: rest =>
    match part with
    | opening .. => outermost (depth + 2) rest
    | closing => outermost depth rest
    | scalar .. | reference _ => outermost (depth + 1) rest

end Part

/-- A document by its parts. Anchors have numbers, of which one may be used again. -/
structure Document where
  parts : List (Part Nat)
deriving DecidableEq, Repr

namespace Document

/-- Directives up to the mark that has to follow them: the handles of tags that they declare. Only
two versions are known, a version is given once, and a handle is declared once. -/
def prologue? (hasVersion : Bool) (handles : Handles) : List Lexeme → Option (Handles × List Lexeme)
  | .documentStart :: rest => some (handles, rest)
  | .directive (.version major minor) :: rest =>
    if hasVersion || major != 1 || (minor != 1 && minor != 2) then none
    else prologue? true handles rest
  | .directive (.handle handle name) :: rest =>
    if (handles.lookup handle).isSome then none
    else prologue? hasVersion ((handle, name) :: handles) rest
  | _ => none

/-- Whether a lexeme is one on the level of documents. -/
def isBound : Lexeme → Bool
  | .directive _ | .documentStart | .documentEnd => true
  | _ => false

/-- The parts of a document behind its beginning, with the lexemes behind it. -/
def content? (handles : Handles) (lexemes : List Lexeme) :
    Option (List (Part String) × List Lexeme) :=
  if lexemes.head?.all isBound then some ([.empty none none], lexemes)
  else do
    let (parts, rest) ←
      Goal.read? (handles ++ Handles.default) #[] [.node .lines none none] lexemes
    return (parts.toList, rest)

/-- The only document of a text. It may begin without a mark if there are no directives, and a text
with no document at all stands for an empty one. Behind it come only marks of its end. -/
def ofLexemes? (lexemes : List Lexeme) : Option Document := do
  let (handles, rest) ←
    match lexemes with
    | .directive _ :: _ | .documentStart :: _ => prologue? false [] lexemes
    | .documentEnd :: _ => none
    | lexemes => some ([], lexemes)
  let (parts, rest) ← content? handles rest
  if rest.all (· = .documentEnd) then return ⟨← Part.numbered? [] parts⟩ else none

def ofText? (text : String) : Option Document := do
  ofLexemes? (← Lexeme.ofText? text)

/-- The last part with an anchor of this number. -/
def target? (document : Document) (number : Nat) : Option (Part Nat) :=
  document.parts.reverse.find? (·.anchor? = some number)

/-- The scalar that a part is, or stands for. -/
def scalar? (document : Document) : Part Nat → Option Scalar
  | .scalar _ scalar => some scalar
  | .reference number =>
    match document.target? number with
    | some (.scalar _ scalar) => some scalar
    | _ => none
  | .opening .. | .closing => none

def pairs {α : Type} : List α → List (α × α)
  | first :: second :: rest => (first, second) :: pairs rest
  | _ => []

/-- The keys of a mapping with their values, of which a list or a mapping is its first part. -/
abbrev Members := List (Part Nat × Part Nat)

/-- The members of a document that is a mapping, or that is empty and has none. -/
def members? (document : Document) : Option Members :=
  match document.parts with
  | .opening _ .mapping :: rest => some (pairs (Part.outermost 0 rest))
  | [.scalar _ scalar] => if scalar.style = .plain ∧ scalar.text = "" then some [] else none
  | _ => none

end Document

end Jack.Yaml
