import Jack.Proofs.Evaluation

namespace Jack

/-- All that statements change. -/
structure Store where
  frame : Frame
  world : World

def Machine.store (machine : Machine) : Store :=
  ⟨machine.frame, machine.world⟩

/-- How statements end: the ones behind them are next, or the subroutine returns a word. -/
inductive Ending where
  | through
  | returned (word : Word)

def Variable.assign (found : Variable) (word : Word) (store : Store) : Store :=
  match found.kind with
  | .statics => { store with world := store.world.setStatic found.index word }
  | .field =>
    { store with
      world := store.world.setHeap (store.frame.this + BitVec.ofNat 16 found.index) word }
  | .argument => { store with frame := store.frame.setArgument found.index word }
  | .locals => { store with frame := store.frame.setLocal found.index word }

/-- Gives a name, which has to be declared, a new value. -/
def Environment.assign (environment : Environment) (name : String) (word : Word)
    (store : Store) : Store :=
  match environment.lookup? name with
  | some found => found.assign word store
  | none => store

section

variable (environment : Environment) (oracle : Oracle)

mutual

/-- A statement leads from one store to another. The address of an element is known before the
word that it is given, and a loop ends where the complement of its condition is not zero. -/
inductive Statement.Runs : Statement → Store → Ending → Store → Prop where
  | setVariable {name : String} {value : Expression} {frame : Frame} {world after : World}
      {word : Word} (valued : value.eval environment oracle frame world = (word, after)) :
      Statement.Runs (.setVariable name value) ⟨frame, world⟩ .through
        (environment.assign name word ⟨frame, after⟩)
  | setElement {name : String} {index value : Expression} {frame : Frame}
      {world middle after : World} {place word : Word}
      (located : index.eval environment oracle frame world = (place, middle))
      (valued : value.eval environment oracle frame middle = (word, after)) :
      Statement.Runs (.setElement name index value) ⟨frame, world⟩ .through
        ⟨frame, after.setHeap (environment.value frame world name + place) word⟩
  | ifThen {condition : Expression} {body : Statements} {frame : Frame} {world after : World}
      {word : Word} {ending : Ending} {last : Store}
      (tested : condition.eval environment oracle frame world = (word, after)) (holds : word ≠ 0)
      (then_ : Statements.Runs body ⟨frame, after⟩ ending last) :
      Statement.Runs (.ifThen condition body) ⟨frame, world⟩ ending last
  | ifNot {condition : Expression} {body : Statements} {frame : Frame} {world after : World}
      (tested : condition.eval environment oracle frame world = (0, after)) :
      Statement.Runs (.ifThen condition body) ⟨frame, world⟩ .through ⟨frame, after⟩
  | ifElseThen {condition : Expression} {body otherwise : Statements} {frame : Frame}
      {world after : World} {word : Word} {ending : Ending} {last : Store}
      (tested : condition.eval environment oracle frame world = (word, after)) (holds : word ≠ 0)
      (then_ : Statements.Runs body ⟨frame, after⟩ ending last) :
      Statement.Runs (.ifElse condition body otherwise) ⟨frame, world⟩ ending last
  | ifElseNot {condition : Expression} {body otherwise : Statements} {frame : Frame}
      {world after : World} {ending : Ending} {last : Store}
      (tested : condition.eval environment oracle frame world = (0, after))
      (else_ : Statements.Runs otherwise ⟨frame, after⟩ ending last) :
      Statement.Runs (.ifElse condition body otherwise) ⟨frame, world⟩ ending last
  | loopEnd {condition : Expression} {body : Statements} {frame : Frame} {world after : World}
      {word : Word} (tested : condition.eval environment oracle frame world = (word, after))
      (fails : ~~~word ≠ 0) :
      Statement.Runs (.loop condition body) ⟨frame, world⟩ .through ⟨frame, after⟩
  | loopAgain {condition : Expression} {body : Statements} {frame : Frame} {world after : World}
      {word : Word} {ending : Ending} {middle last : Store}
      (tested : condition.eval environment oracle frame world = (word, after))
      (holds : ~~~word = 0) (once : Statements.Runs body ⟨frame, after⟩ .through middle)
      (again : Statement.Runs (.loop condition body) middle ending last) :
      Statement.Runs (.loop condition body) ⟨frame, world⟩ ending last
  | loopReturn {condition : Expression} {body : Statements} {frame : Frame} {world after : World}
      {word result : Word} {last : Store}
      (tested : condition.eval environment oracle frame world = (word, after))
      (holds : ~~~word = 0)
      (once : Statements.Runs body ⟨frame, after⟩ (.returned result) last) :
      Statement.Runs (.loop condition body) ⟨frame, world⟩ (.returned result) last
  | doCall {qualifier : Option String} {callee : String} {arguments : Arguments} {frame : Frame}
      {world after : World} {word : Word}
      (called : (Term.call qualifier callee arguments).eval environment oracle frame world =
        (word, after)) :
      Statement.Runs (.doCall qualifier callee arguments) ⟨frame, world⟩ .through ⟨frame, after⟩
  | returnNothing {store : Store} : Statement.Runs .returnNothing store (.returned 0) store
  | returnValue {value : Expression} {frame : Frame} {world after : World} {word : Word}
      (valued : value.eval environment oracle frame world = (word, after)) :
      Statement.Runs (.returnValue value) ⟨frame, world⟩ (.returned word) ⟨frame, after⟩

inductive Statements.Runs : Statements → Store → Ending → Store → Prop where
  | done {store : Store} : Statements.Runs .done store .through store
  | next {first : Statement} {rest : Statements} {store middle last : Store} {ending : Ending}
      (front : Statement.Runs first store .through middle)
      (back : Statements.Runs rest middle ending last) :
      Statements.Runs (.more first rest) store ending last
  | stop {first : Statement} {rest : Statements} {store last : Store} {word : Word}
      (front : Statement.Runs first store (.returned word) last) :
      Statements.Runs (.more first rest) store (.returned word) last

end

end

/-- Local variables begin as zero. -/
def Frame.cleared (frame : Frame) (count : Nat) : Frame :=
  { frame with locals := fun index => if index < count then 0 else frame.locals index }

namespace Subroutine

/-- A method works on the object that it is handed, and a constructor on a new one with room for
its fields. -/
def opened (classVariables : List Declaration) (oracle : Oracle) (subroutine : Subroutine)
    (store : Store) : Store :=
  match subroutine.kind with
  | .constructor =>
    let size := BitVec.ofNat 16 (Declaration.count .field classVariables)
    let made := oracle.call "Memory.alloc" [size] store.world
    ⟨{ store.frame with this := made.1 }, made.2⟩
  | .method => { store with frame := { store.frame with this := store.frame.arguments 0 } }
  | .function => store

/-- What a subroutine that is called in some store does until it returns. -/
def Runs (className : String) (classVariables : List Declaration) (oracle : Oracle)
    (subroutine : Subroutine) (store : Store) (ending : Ending) (last : Store) : Prop :=
  let cleared := { store with frame := store.frame.cleared (subroutine.localCount className) }
  subroutine.body.Runs (subroutine.environment className classVariables) oracle
    (subroutine.opened classVariables oracle cleared) ending last

end Subroutine

end Jack
