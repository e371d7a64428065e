namespace Jack

inductive Level where
  | error
  | warn
  | info
  | debug
  | trace
deriving DecidableEq, Repr

namespace Level

def name : Level → String
  | error => "ERROR"
  | warn => "WARN"
  | info => "INFO"
  | debug => "DEBUG"
  | trace => "TRACE"

/-- How much is shown at a level: each level shows all that the ones above it show. -/
def rank : Level → Nat
  | error => 0
  | warn => 1
  | info => 2
  | debug => 3
  | trace => 4

end Level

structure Message where
  level : Level
  text : String
deriving DecidableEq, Repr

/-- Whether a message is shown when everything up to a level is. -/
def Message.shownAt (limit : Level) (message : Message) : Bool :=
  message.level.rank ≤ limit.rank

end Jack
