import Jack.Compilation.ClassCode

namespace Jack

structure Settings where
  maxDepth : Nat
deriving DecidableEq, Repr

namespace Settings

def default : Settings :=
  ⟨ClassCode.defaultLimit⟩

/-- The settings of a file that says something of the limit, or nothing. -/
def ofLimit? (said : Option Nat) : Settings :=
  ⟨said.getD default.maxDepth⟩

/-- How a message shows the settings. -/
def describe (settings : Settings) : String :=
  "CompileConf \x7b max_depth: " ++ toString settings.maxDepth ++ " \x7d"

end Settings

end Jack
