import Std.Data.TreeMap
import Jack.Vm.Instruction

namespace Jack

inductive VarKind where
  | statics
  | field
  | argument
  | locals
deriving DecidableEq, Repr

namespace VarKind

def all : List VarKind :=
  [statics, field, argument, locals]

theorem mem_all (kind : VarKind) : kind ∈ all := by
  cases kind <;> decide

def text : VarKind → String
  | statics => "static"
  | field => "field"
  | argument => "argument"
  | locals => "local"

def ofText? (text : String) : Option VarKind :=
  all.find? fun kind => kind.text == text

theorem ofText?_text (kind : VarKind) : ofText? kind.text = some kind := by
  cases kind <;> decide

/-- The segment that holds the variables of a kind. Fields lie in the current object. -/
def segment : VarKind → Segment
  | statics => .statics
  | field => .this
  | argument => .argument
  | locals => .locals

def isClassLevel : VarKind → Bool
  | statics | field => true
  | argument | locals => false

end VarKind

/-- A declared variable. The index counts the variables of its kind in its scope from zero. -/
structure Variable where
  type : String
  kind : VarKind
  index : Nat
deriving DecidableEq, Repr

inductive ScopeError where
  | redefined (name : String)
  | wrongScope (name : String) (kind : VarKind)
  | tooMany (name : String) (kind : VarKind)
deriving DecidableEq, Repr

namespace ScopeError

def name : ScopeError → String
  | redefined name => name
  | wrongScope name _ => name
  | tooMany name _ => name

def kind? : ScopeError → Option VarKind
  | redefined _ => none
  | wrongScope _ kind => some kind
  | tooMany _ kind => some kind

def message : ScopeError → String
  | redefined name => s!"error at '{name}': already defined in this scope"
  | wrongScope name kind => s!"error at '{name}': {kind.text} variable declared in the wrong scope"
  | tooMany name kind => s!"error at '{name}': too many {kind.text} variables"

end ScopeError

/-- How many variables of each kind a level holds. -/
structure VarCounts where
  statics : Nat
  field : Nat
  argument : Nat
  locals : Nat
deriving DecidableEq, Repr

namespace VarCounts

def zero : VarCounts :=
  ⟨0, 0, 0, 0⟩

def get (counts : VarCounts) : VarKind → Nat
  | .statics => counts.statics
  | .field => counts.field
  | .argument => counts.argument
  | .locals => counts.locals

def bump (counts : VarCounts) : VarKind → VarCounts
  | .statics => { counts with statics := counts.statics + 1 }
  | .field => { counts with field := counts.field + 1 }
  | .argument => { counts with argument := counts.argument + 1 }
  | .locals => { counts with locals := counts.locals + 1 }

@[simp] theorem get_zero (kind : VarKind) : zero.get kind = 0 := by
  cases kind <;> rfl

theorem get_bump (counts : VarCounts) (kind other : VarKind) :
    (counts.bump kind).get other =
      if other = kind then counts.get other + 1 else counts.get other := by
  cases kind <;> cases other <;> simp [get, bump]

end VarCounts

/-- The variables that one scope declares itself. -/
structure ScopeLevel where
  declared : Std.TreeMap String Variable
  counts : VarCounts

namespace ScopeLevel

def empty : ScopeLevel :=
  ⟨∅, .zero⟩

end ScopeLevel

/-- A scope inside the scopes that enclose it, innermost first. The outermost one is that of a
class, all others are those of subroutines. -/
structure Scope where
  inner : ScopeLevel
  outer : List ScopeLevel

namespace Scope

/-- The largest number of variables of one kind in one scope. -/
def maxPerKind : Nat := 65535

/-- A class scope without variables. -/
def ofClass : Scope :=
  ⟨.empty, []⟩

def isSubroutine (scope : Scope) : Bool :=
  !scope.outer.isEmpty

/-- A new subroutine scope inside a scope. -/
def enter (scope : Scope) : Scope :=
  ⟨.empty, scope.inner :: scope.outer⟩

/-- The scope that encloses a scope. -/
def leave? (scope : Scope) : Option Scope :=
  match scope.outer with
  | [] => none
  | inner :: outer => some ⟨inner, outer⟩

/-- Forgets what the innermost scope declares. -/
def reset (scope : Scope) : Scope :=
  { scope with inner := .empty }

def count (scope : Scope) (kind : VarKind) : Nat :=
  scope.inner.counts.get kind

/-- The variable that a name stands for: that of the innermost scope that declares it. -/
def lookup? (scope : Scope) (name : String) : Option Variable :=
  (scope.inner :: scope.outer).findSome? fun level => level.declared[name]?

/-- Declares a variable in the innermost scope. Statics and fields belong to a class, arguments
and locals to a subroutine. -/
def define (scope : Scope) (name type : String) (kind : VarKind) : Except ScopeError Scope :=
  if kind.isClassLevel = scope.isSubroutine then .error (.wrongScope name kind)
  else if scope.inner.declared.contains name then .error (.redefined name)
  else if maxPerKind ≤ scope.count kind then .error (.tooMany name kind)
  else
    let new : Variable := ⟨type, kind, scope.count kind⟩
    .ok { scope with
      inner := ⟨scope.inner.declared.insert name new, scope.inner.counts.bump kind⟩ }

end Scope

end Jack
