namespace Jack

inductive FileError where
  | missing
  | notDirectory
  | isDirectory
  | nameTooLong
  | nulInName
  /-- Any other reason, in the words of the system. -/
  | other (reason : String)
deriving DecidableEq, Repr

def FileError.message : FileError → String
  | missing => "No such file or directory (os error 2)"
  | notDirectory => "Not a directory (os error 20)"
  | isDirectory => "Is a directory (os error 21)"
  | nameTooLong => "File name too long (os error 36)"
  | nulInName => "file name contained an unexpected NUL byte"
  | other reason => reason

inductive FileKind where
  | regular
  | directory
  | special
deriving DecidableEq, Repr

/-- Access to files by their paths. Writing makes a file or replaces what is in it. -/
class FileAccess (m : Type → Type) where
  kind : String → m (Except FileError FileKind)
  /-- The names in a directory, in any order. -/
  names : String → m (Except FileError (List String))
  read : String → m (Except FileError ByteArray)
  write : String → ByteArray → m (Except FileError Unit)

end Jack
