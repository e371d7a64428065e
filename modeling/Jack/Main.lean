import Jack.Formats
import Jack.Run

namespace Jack

/-- The reasons that the rules of a run can meet have their own names. A system may give the
negative of an error number. -/
def FileError.ofSystem (error : IO.Error) : FileError :=
  let isNumber (number code : UInt32) : Bool := code == number || code == 0 - number
  match error with
  | .noFileOrDirectory .. => .missing
  | .inappropriateType _ code _ => if isNumber 21 code then .isDirectory else .notDirectory
  | .invalidArgument _ code _ =>
    if isNumber 36 code then .nameTooLong
    else if isNumber 22 code then .nulInName
    else .other (toString error)
  | error => .other (toString error)

def FileKind.ofSystem : IO.FS.FileType → FileKind
  | .file => .regular
  | .dir => .directory
  | .symlink | .other => .special

def attempt {α : Type} (action : IO α) : IO (Except FileError α) := do
  try return .ok (← action)
  catch error => return .error (.ofSystem error)

/-- The empty path leads nowhere, and any other starts in the current directory. -/
instance : FileAccess IO where
  kind path := if path.isEmpty then return .error .missing else attempt do
    return .ofSystem (← ((← IO.currentDir) / path).metadata).type
  names path := attempt do
    return (← ((← IO.currentDir) / path).readDir).toList.map (·.fileName)
  read path := attempt (IO.FS.readBinFile path)
  write path content := attempt (IO.FS.writeBinFile path content)

def Message.line (message : Message) : String :=
  s!"{message.level.name} {message.text}"

end Jack

def main (arguments : List String) : IO UInt32 := do
  let run : Jack.Run ← Jack.Run.ofArguments arguments
  for message in run.messages do
    IO.println (Jack.Message.line message)
  IO.print run.output
  return run.exitCode.toUInt32
