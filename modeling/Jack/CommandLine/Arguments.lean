import Jack.CommandLine
import Jack.Text.Digits

namespace Jack

namespace CommandLine

inductive Flag where
  | verbose
  | xml
deriving DecidableEq, Repr

/-- What a page is about. -/
inductive Page where
  | usage
  | version
deriving DecidableEq, Repr

inductive Key where
  | config
  | maxDepth
deriving DecidableEq, Repr

def Key.text : Key → String
  | config => "--config"
  | maxDepth => "--max-depth"

/-- What an argument is by its form. -/
inductive Argument where
  | flag (flag : Flag)
  | page (page : Page)
  | option (key : Key) (value : Option String)
  /-- All that follows is text. -/
  | separator
  | text (value : String)
  | unknown
deriving DecidableEq, Repr

/-- The value that stands in one argument with its key. -/
def attached? (key : Key) (argument : String) : Option String :=
  let start := (key.text ++ "=").toList
  if start.isPrefixOf argument.toList then
    some (String.ofList (argument.toList.drop start.length))
  else none

/-- A dash alone is text, and begins an option otherwise. -/
def isText (argument : String) : Bool :=
  !argument.startsWith "-" || argument == "-"

def Argument.ofString (argument : String) : Argument :=
  if argument = "-v" ∨ argument = "--verbose" then .flag .verbose
  else if argument = "--xml" then .flag .xml
  else if argument = "-h" ∨ argument = "--help" then .page .usage
  else if argument = "-V" ∨ argument = "--version" then .page .version
  else if argument = "--" then .separator
  else if argument = Key.text .config then .option .config none
  else if argument = Key.text .maxDepth then .option .maxDepth none
  else
    match attached? .config argument, attached? .maxDepth argument with
    | some value, _ => .option .config (some value)
    | none, some value => .option .maxDepth (some value)
    | none, none => if isText argument then .text argument else .unknown

/-- What does not begin with a dash is text. -/
theorem Argument.ofString_eq_text {argument : String} (plain : argument.startsWith "-" = false) :
    ofString argument = .text argument := by
  have dashes : ∀ option ∈ ["-v", "--verbose", "--xml", "-h", "--help", "-V", "--version", "--",
      Key.text .config, Key.text .maxDepth], option.startsWith "-" = true := by
    decide +kernel
  have differs {option : String} (begins : option.startsWith "-" = true) : argument ≠ option := by
    rintro rfl
    cases plain.symm.trans begins
  have detached (key : Key) : attached? key argument = none := by
    refine if_neg fun isStart => ?_
    have dash : "-".toList <+: (key.text ++ "=").toList := by
      cases key <;> exact List.isPrefixOf_iff_prefix.1 (by decide)
    have inFront := dash.trans (List.isPrefixOf_iff_prefix.1 isStart)
    cases plain.symm.trans (String.startsWith_string_iff.2 inFront)
  simp only [List.forall_mem_cons] at dashes
  obtain ⟨v, verbose, xml, h, help, V, version, separator, config, maxDepth, -⟩ := dashes
  simp only [ofString, differs v, differs verbose, differs xml, differs h, differs help, differs V,
    differs version, differs separator, differs config, differs maxDepth, detached, isText, plain,
    or_self, if_false, Bool.not_false, Bool.true_or, if_true]

/-- The options given before the command, or those behind it. -/
structure Options where
  verbose : Bool
  xml : Bool
  config : Option String
  maxDepth : Option Nat
deriving DecidableEq, Repr

namespace Options

def none : Options :=
  ⟨false, false, .none, .none⟩

/-- Each flag may be given once. -/
def setFlag (options : Options) : Flag → Option Options
  | .verbose => if options.verbose then .none else some { options with verbose := true }
  | .xml => if options.xml then .none else some { options with xml := true }

/-- A number in decimal digits, of at most 64 bits. -/
def count? (text : String) : Option Nat :=
  let digits := match text.toList with
    | '+' :: rest => rest
    | chars => chars
  Text.Digits.word? 10 digits

/-- Each option may be given once, with a file that has a name or with a number. -/
def set (options : Options) (key : Key) (value : String) : Option Options :=
  match key with
  | .config =>
    if options.config.isSome || value.isEmpty then .none
    else some { options with config := some value }
  | .maxDepth =>
    if options.maxDepth.isSome then .none
    else (count? value).map fun depth => { options with maxDepth := some depth }

end Options

inductive CommandName where
  | compile
  | tokens
deriving DecidableEq, Repr

def CommandName.ofText? : String → Option CommandName
  | "compile" => some compile
  | "tokens" => some tokens
  | _ => none

/-- How the program, or one of its commands, is called. -/
def usage : Option CommandName → String
  | none => "Usage: jackc [OPTIONS] <COMMAND>\n"
  | some .compile => "Usage: jackc compile [OPTIONS] <PATH>\n"
  | some .tokens => "Usage: jackc tokens [OPTIONS] <FILE>\n"

def version : String := "jackc 0.1.0\n"

/-- What is asked for behind a command for pages. -/
def help : List String → Request
  | [] | ["help"] => .page (usage none)
  | [name] =>
    match CommandName.ofText? name with
    | some command => .page (usage (some command))
    | none => .refused
  | _ => .refused

/-- How far a command line is read. -/
structure Reading where
  before : Options
  command : Option CommandName
  behind : Options
  path : Option String

namespace Reading

def start : Reading :=
  ⟨.none, none, .none, none⟩

/-- Options go to the side of the command on which they stand. -/
def change (reading : Reading) (change : Options → Option Options) : Option Reading :=
  match reading.command with
  | none => (change reading.before).map fun before => { reading with before }
  | some _ => (change reading.behind).map fun behind => { reading with behind }

/-- A flag that only one command has stands behind that command. -/
def setFlag (reading : Reading) (flag : Flag) : Option Reading :=
  if flag = .xml ∧ reading.command ≠ some .tokens then none
  else reading.change (·.setFlag flag)

/-- A command works on one path, which has a name. -/
def setPath (reading : Reading) (path : String) : Option Reading :=
  if reading.path.isSome || path.isEmpty then none
  else some { reading with path := some path }

/-- The page that is shown at this point. Commands have no version of their own. -/
def page (reading : Reading) : Page → Request
  | .usage => .page (usage reading.command)
  | .version => if reading.command.isSome then .refused else .page version

/-- The line that has been read. What stands behind the command goes before what stands in front of
it. -/
def line? (reading : Reading) : Option CommandLine := do
  let path ← reading.path
  let command ← match ← reading.command with
    | .compile => some (Command.compile path)
    | .tokens => some (Command.tokens path reading.behind.xml)
  return {
    verbose := reading.before.verbose || reading.behind.verbose
    config := reading.behind.config <|> reading.before.config
    maxDepth := reading.behind.maxDepth <|> reading.before.maxDepth
    command }

/-- Reads on. An option without a value in its argument takes the next one, which may not look
like an option. Behind a separator there are only texts, and no command any more. The first text is
the command, and a page is shown wherever it is asked for. -/
def read (reading : Reading) : List String → Request
  | [] => (reading.line?).elim .refused .line
  | argument :: rest =>
    match Argument.ofString argument with
    | .flag flag => (reading.setFlag flag).elim .refused (·.read rest)
    | .page page => reading.page page
    | .option key (some value) => (reading.change (·.set key value)).elim .refused (·.read rest)
    | .option key none =>
      match rest with
      | [] => .refused
      | value :: rest =>
        if isText value then (reading.change (·.set key value)).elim .refused (·.read rest)
        else .refused
    | .separator =>
      match reading.command, rest with
      | none, _ => .refused
      | some _, [] => (reading.line?).elim .refused .line
      | some _, [path] => ((reading.setPath path).bind line?).elim .refused .line
      | some _, _ => .refused
    | .text text =>
      match reading.command with
      | some _ => (reading.setPath text).elim .refused (·.read rest)
      | none =>
        if text = "help" then help rest
        else
          match CommandName.ofText? text with
          | none => .refused
          | some name => { reading with command := some name }.read rest
    | .unknown => .refused

end Reading

/-- What arguments ask for. -/
def ofArguments (arguments : List String) : Request :=
  Reading.start.read arguments

/-- A path that is not taken for an option is compiled. -/
theorem ofArguments_compile {path : String} (inhabited : path ≠ "")
    (plain : path.startsWith "-" = false) :
    ofArguments ["compile", path] = .line ⟨false, none, none, .compile path⟩ := by
  have isCommand : Argument.ofString "compile" = .text "compile" := by decide +kernel
  have isPath := Argument.ofString_eq_text plain
  have nonempty : path.isEmpty = false := by simpa using inhabited
  simp [ofArguments, Reading.read, isCommand, isPath, CommandName.ofText?, Reading.start,
    Reading.setPath, nonempty, Reading.line?, Options.none]

end CommandLine

end Jack
