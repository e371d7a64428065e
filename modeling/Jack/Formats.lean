import Jack.CommandLine.Arguments
import Jack.Readers
import Jack.Text.Utf8
import Jack.Yaml.Limit

namespace Jack

/-- Settings are YAML documents, and options stand anywhere among the arguments. -/
instance Readers.formats : Readers where
  settings bytes :=
    match Text.Utf8.decode bytes with
    | .error error => .error error.message
    | .ok text =>
      match Yaml.Document.ofText? text with
      | none => .error "no document"
      | some document => document.limit?.elim (.error "no settings") .ok
  arguments := CommandLine.ofArguments

end Jack
