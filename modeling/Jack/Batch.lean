import Jack.Compilation
import Jack.Files.Access
import Jack.Files.Path
import Jack.Text.Utf8

namespace Jack

inductive RunError where
  | file (error : FileError)
  | encoding (error : Text.Utf8Error)
  | compilation (failure : Compilation.Failure)
  | noSources (path : String)
  /-- A file that holds no settings, or that is there and cannot be read. -/
  | settings (reason : String)
deriving DecidableEq, Repr

def RunError.message : RunError → String
  | file error => error.message
  | encoding error => error.message
  | compilation failure => failure.message
  | noSources path => s!"no .jack files in {path}"
  | settings reason => s!"invalid configuration: {reason}"

namespace Batch

def sourceExtension : String := "jack"

def outputExtension : String := "vm"

/-- Where the instructions of a source go. -/
def outputPath (source : String) : String :=
  Path.withExtension source outputExtension

/-- What became of one source. -/
structure Report where
  source : String
  output : String
  result : Except RunError Summary

def Report.failed (report : Report) : Bool :=
  match report.result with
  | .ok _ => false
  | .error _ => true

def Report.message (report : Report) : Message :=
  match report.result with
  | .ok summary =>
    ⟨.info, s!"{report.source} -> {report.output} ({summary.instructions} instructions)"⟩
  | .error error => ⟨.error, s!"{report.source}: {error.message}"⟩

variable {m : Type → Type} [Monad m] [FileAccess m]

def isRegular (path : String) : m Bool := do
  match ← FileAccess.kind path with
  | .ok kind => return kind = .regular
  | .error _ => return false

/-- The sources that a path names, in the order of their names: all that lie directly in a
directory, and else the path itself. -/
def findSources (path : String) : m (Except RunError (List String)) := do
  match ← FileAccess.kind path with
  | .error error => return .error (.file error)
  | .ok .directory =>
    match ← FileAccess.names path with
    | .error error => return .error (.file error)
    | .ok names =>
      let named := names.filter fun name => Path.extension? name = some sourceExtension
      let sources ← (named.map (Path.join path)).filterM isRegular
      if sources.isEmpty then return .error (.noSources path)
      else return .ok (sources.mergeSort fun first second => first ≤ second)
  | .ok _ => return .ok [path]

/-- Compiles a source file. A file that cannot be read as text leaves its output alone, and any
other gets what was written up to the end or the first error. -/
def compileFile (limit : Nat) (source output : String) :
    m (List Message × Except RunError Summary) := do
  match ← FileAccess.read source with
  | .error error => return ([], .error (.file error))
  | .ok bytes =>
    match Text.Utf8.decode bytes with
    | .error error => return ([], .error (.encoding error))
    | .ok text =>
      let compilation := Compilation.ofSource limit text .unlimited
      match ← FileAccess.write output compilation.sink.held with
      | .error error => return ([], .error (.file error))
      | .ok () => return (compilation.messages, compilation.result.mapError .compilation)

/-- Compiles one source, with all that is reported about it. -/
def compileSource (limit : Nat) (source : String) : m (List Message × Report) := do
  let output := outputPath source
  let (messages, result) ← compileFile limit source output
  let report : Report := ⟨source, output, result⟩
  return (messages ++ [report.message], report)

/-- Compiles the sources that a path names. One that fails does not keep the others from being
compiled. -/
def compilePath (limit : Nat) (path : String) :
    m (List Message × Except RunError (List Report)) := do
  match ← findSources path with
  | .error error => return ([], .error error)
  | .ok sources =>
    let compiled ← sources.mapM (compileSource limit)
    return (compiled.flatMap Prod.fst, .ok (compiled.map Prod.snd))

end Batch

end Jack
