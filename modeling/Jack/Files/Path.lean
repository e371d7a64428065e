namespace Jack.Path

/-- The names in a path, cut at its slashes. Nothing but a slash on one side makes an empty name. -/
def components (path : String) : List String :=
  (path.toList.splitOn '/').map String.ofList

/-- Drops slashes, and dots that stand alone behind a slash, from the front of a path that is
written backwards. -/
def dropTail : List Char → List Char
  | '/' :: rest => dropTail rest
  | '.' :: '/' :: rest => dropTail ('/' :: rest)
  | path => path

def notSlash (c : Char) : Bool :=
  c != '/'

def notDot (c : Char) : Bool :=
  c != '.'

/-- The name at the end of a path, backwards. A path that ends in a name for a directory by its
place, such as the one above, has none. -/
def lastName? (path : List Char) : Option (List Char) :=
  match (dropTail path.reverse).takeWhile notSlash with
  | [] | ['.'] | ['.', '.'] => none
  | name => some name

/-- The stem of a name that is written backwards, and the extension if there is one. A dot that
begins the name does not divide it. -/
def divide (name : List Char) : List Char × Option (List Char) :=
  match name.dropWhile notDot with
  | [] | ['.'] => (name, none)
  | _ :: stem => (stem, some (name.takeWhile notDot))

def extension? (path : String) : Option String := do
  let name ← lastName? path.toList
  let extension ← (divide name).2
  return String.ofList extension.reverse

/-- A path whose last name has another extension. What stands behind the name is dropped. A stem
that is a single dot is no name, so a path that ends in one keeps it and gets no extension. -/
def withExtension (path extension : String) : String :=
  match lastName? path.toList with
  | none => path
  | some name =>
    let (stem, found) := divide name
    let cut := dropTail path.toList.reverse
    let before := (cut.drop (name.length - stem.length)).reverse
    if stem = ['.'] ∧ cut.length = path.length then
      String.ofList ((cut.drop (found.getD []).length).reverse)
    else String.ofList before ++ "." ++ extension

/-- A name in a directory. -/
def join (directory name : String) : String :=
  if directory.isEmpty || directory.endsWith "/" then directory ++ name
  else directory ++ "/" ++ name

end Jack.Path
