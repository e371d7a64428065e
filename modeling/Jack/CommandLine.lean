namespace Jack

/-- What a run is asked for. -/
inductive Command where
  | compile (path : String)
  | tokens (file : String) (asDocument : Bool)
deriving DecidableEq, Repr

structure CommandLine where
  verbose : Bool
  config : Option String
  maxDepth : Option Nat
  command : Command
deriving DecidableEq, Repr

/-- What arguments are read as. -/
inductive Request where
  | line (line : CommandLine)
  /-- A page about the program itself. -/
  | page (text : String)
  /-- No command line. -/
  | refused
deriving DecidableEq, Repr

end Jack
