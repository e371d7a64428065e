import Jack.Vm.Instruction

namespace Jack

abbrev Word := BitVec 16

/-- What a running subroutine has for itself: its variables, and the object that it works on. -/
structure Frame where
  locals : Nat → Word
  arguments : Nat → Word
  this : Word

/-- What all subroutines share, and the calls made so far with the words handed over. -/
structure World where
  heap : Word → Word
  statics : Nat → Word
  calls : List (String × List Word)

structure Machine where
  stack : List Word
  frame : Frame
  world : World
  that : Word
  temp : Nat → Word

/-- What calls come to. A result and a new heap and new statics depend on the callee, on the words
handed over and on heap and statics before. The temporary words may be left in any state. -/
structure Oracle where
  answer : String → List Word → (Word → Word) → (Nat → Word) →
    Word × (Word → Word) × (Nat → Word)
  temp : String → List Word → Machine → Nat → Word

def Oracle.call (oracle : Oracle) (callee : String) (arguments : List Word) (world : World) :
    Word × World :=
  let answer := oracle.answer callee arguments world.heap world.statics
  (answer.1, ⟨answer.2.1, answer.2.2, world.calls ++ [(callee, arguments)]⟩)

/-- The word that stands for a truth value. -/
def Word.truth (holds : Bool) : Word :=
  if holds then -1 else 0

/-- The stack behind an operation. The word on top is the second operand. -/
def Operation.result? : Operation → List Word → Option (List Word)
  | add, y :: x :: rest => some ((x + y) :: rest)
  | sub, y :: x :: rest => some ((x - y) :: rest)
  | eq, y :: x :: rest => some (.truth (x == y) :: rest)
  | gt, y :: x :: rest => some (.truth (y.slt x) :: rest)
  | lt, y :: x :: rest => some (.truth (x.slt y) :: rest)
  | and, y :: x :: rest => some ((x &&& y) :: rest)
  | or, y :: x :: rest => some ((x ||| y) :: rest)
  | neg, x :: rest => some (-x :: rest)
  | not, x :: rest => some (~~~x :: rest)
  | _, _ => none

namespace Machine

def read? (machine : Machine) : Segment → Nat → Option Word
  | .constant, index => some (BitVec.ofNat 16 index)
  | .argument, index => some (machine.frame.arguments index)
  | .locals, index => some (machine.frame.locals index)
  | .statics, index => some (machine.world.statics index)
  | .this, index => some (machine.world.heap (machine.frame.this + BitVec.ofNat 16 index))
  | .that, index => some (machine.world.heap (machine.that + BitVec.ofNat 16 index))
  | .pointer, 0 => some machine.frame.this
  | .pointer, 1 => some machine.that
  | .pointer, _ => none
  | .temp, index => if index < 8 then some (machine.temp index) else none

end Machine

namespace Frame

def setArgument (frame : Frame) (index : Nat) (word : Word) : Frame :=
  { frame with arguments := fun other => if other = index then word else frame.arguments other }

def setLocal (frame : Frame) (index : Nat) (word : Word) : Frame :=
  { frame with locals := fun other => if other = index then word else frame.locals other }

end Frame

namespace World

def setStatic (world : World) (index : Nat) (word : Word) : World :=
  { world with statics := fun other => if other = index then word else world.statics other }

def setHeap (world : World) (address word : Word) : World :=
  { world with heap := fun other => if other = address then word else world.heap other }

end World

namespace Machine

def write? (machine : Machine) (word : Word) : Segment → Nat → Option Machine
  | .constant, _ => none
  | .argument, index => some { machine with frame := machine.frame.setArgument index word }
  | .locals, index => some { machine with frame := machine.frame.setLocal index word }
  | .statics, index => some { machine with world := machine.world.setStatic index word }
  | .this, index =>
    some { machine with
      world := machine.world.setHeap (machine.frame.this + BitVec.ofNat 16 index) word }
  | .that, index =>
    some { machine with
      world := machine.world.setHeap (machine.that + BitVec.ofNat 16 index) word }
  | .pointer, 0 => some { machine with frame := { machine.frame with this := word } }
  | .pointer, 1 => some { machine with that := word }
  | .pointer, _ => none
  | .temp, index =>
    if index < 8 then
      some { machine with temp := fun other => if other = index then word else machine.temp other }
    else none

/-- What an instruction does that leads on to the one behind it. Words that it needs have to be on
the stack. -/
def effect? (oracle : Oracle) (machine : Machine) : Instruction → Option Machine
  | .push segment index =>
    (machine.read? segment index).map fun word => { machine with stack := word :: machine.stack }
  | .pop segment index =>
    match machine.stack with
    | [] => none
    | word :: stack => { machine with stack }.write? word segment index
  | .operate operation =>
    (operation.result? machine.stack).map fun stack => { machine with stack }
  | .call callee count =>
    if count ≤ machine.stack.length then
      let arguments := (machine.stack.take count).reverse
      let answer := oracle.call callee arguments machine.world
      some { machine with
        stack := answer.1 :: machine.stack.drop count
        world := answer.2
        temp := oracle.temp callee arguments machine }
    else none
  | .label _ | .goto _ | .ifGoto _ | .function .. | .ret => none

/-- Executes code without jumps to its end. -/
def execute? (oracle : Oracle) (machine : Machine) : List Instruction → Option Machine
  | [] => some machine
  | instruction :: code => (machine.effect? oracle instruction).bind fun next =>
    next.execute? oracle code

theorem execute?_append (oracle : Oracle) (machine : Machine) (first last : List Instruction) :
    machine.execute? oracle (first ++ last) =
      (machine.execute? oracle first).bind fun middle => middle.execute? oracle last := by
  induction first generalizing machine with
  | nil => rfl
  | cons instruction first ih =>
    rw [List.cons_append, execute?, execute?, Option.bind_assoc]
    exact congrArg _ (funext ih)

end Machine

end Jack
