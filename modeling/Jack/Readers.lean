import Jack.CommandLine

namespace Jack

/-- How settings files and arguments are read. Nothing is assumed of it: a run does what it does
whatever is read from them. -/
class Readers where
  /-- What the bytes of a settings file say of the limit, or why they are no settings. -/
  settings : ByteArray → Except String (Option Nat)
  arguments : List String → Request

end Jack
