import Jack.Batch
import Jack.Readers
import Jack.Settings
import Jack.Token.Document
import Jack.Token.Table

namespace Jack

/-- What a run leaves apart from files. -/
structure Run where
  exitCode : Nat
  messages : List Message
  output : String
deriving DecidableEq, Repr

namespace Run

/-- The exit code for arguments that are refused. -/
def usageError : Nat := 64

def failed : Nat := 1

variable {m : Type → Type} [Monad m] [FileAccess m] [Readers]

/-- Reads a file as text. -/
def readText (path : String) : m (Except RunError String) := do
  match ← FileAccess.read path with
  | .error error => return .error (.file error)
  | .ok bytes => return (Text.Utf8.decode bytes).mapError .encoding

/-- The settings of a file. A directory can be opened, but not read. -/
def loadSettings (path : String) : m (Except RunError Settings) := do
  match ← FileAccess.read path with
  | .error .isDirectory => return .error (.settings FileError.isDirectory.message)
  | .error error => return .error (.file error)
  | .ok bytes =>
    match Readers.settings bytes with
    | .error reason => return .error (.settings reason)
    | .ok said => return .ok (.ofLimit? said)

def ofError (messages : List Message) (error : RunError) : Run :=
  ⟨failed, messages ++ [⟨.error, error.message⟩], ""⟩

def compile (limit : Nat) (path : String) : m Run := do
  match ← Batch.compilePath limit path with
  | (messages, .error error) => return ofError messages error
  | (messages, .ok reports) =>
    let done := (reports.filter fun report => !report.failed).length
    let total : Message := ⟨.info, s!"compiled {done} of {reports.length} units"⟩
    return ⟨if done = reports.length then 0 else failed, messages ++ [total], ""⟩

def showTokens (path : String) (asDocument : Bool) : m Run := do
  match ← readText path with
  | .error error => return ofError [] error
  | .ok source =>
    let findings := Finding.ofSource source
    let tokens := Finding.tokens findings
    return {
      exitCode := 0
      messages := (Finding.warnings findings).map Warning.message
      output := if asDocument then Token.document tokens else Token.table tokens }

def perform (limit : Nat) : Command → m Run
  | .compile path => compile limit path
  | .tokens path asDocument => showTokens path asDocument

/-- The settings that a command line names, with what is reported about them. -/
def settingsOf (line : CommandLine) : m (List Message × Except RunError Settings) := do
  match line.config with
  | none => return ([], .ok .default)
  | some path =>
    match ← loadSettings path with
    | .error error => return ([], .error error)
    | .ok settings =>
      return ([⟨.debug, s!"loaded configuration {path}: {settings.describe}"⟩], .ok settings)

/-- The messages up to a level. -/
def shownAt (level : Level) (run : Run) : Run :=
  { run with messages := run.messages.filter (Message.shownAt level) }

/-- Does what a command line asks for. Its limit goes before that of the settings, which are read
in any case. -/
def ofCommandLine (line : CommandLine) : m Run := do
  let level := if line.verbose then Level.debug else .info
  match ← settingsOf line with
  | (messages, .error error) => return (ofError messages error).shownAt level
  | (messages, .ok settings) =>
    let run ← perform (line.maxDepth.getD settings.maxDepth) line.command
    return ({ run with messages := messages ++ run.messages } : Run).shownAt level

/-- Does what arguments ask for. -/
def ofArguments (arguments : List String) : m Run :=
  match Readers.arguments arguments with
  | .line line => ofCommandLine line
  | .page text => return ⟨0, [], text⟩
  | .refused => return ⟨usageError, [], ""⟩

end Run

end Jack
