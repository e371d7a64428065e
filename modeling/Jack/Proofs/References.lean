import Jack.Proofs.Translation

namespace Jack

/-- Where a variable lies: its segment and its index there. -/
abbrev Slot := Segment × Nat

def Variable.slot (found : Variable) : Slot :=
  (found.kind.segment, found.index)

/-- The slot that an instruction reads or writes, if it is that of a variable. -/
def Instruction.slot? : Instruction → Option Slot
  | .push segment index | .pop segment index =>
    match segment with
    | .locals | .argument | .statics | .this => some (segment, index)
    | .constant | .that | .pointer | .temp => none
  | _ => none

/-- The slots of variables that code reads or writes, in order. -/
def accesses (code : List Instruction) : List Slot :=
  code.filterMap Instruction.slot?

theorem accesses_append (first last : List Instruction) :
    accesses (first ++ last) = accesses first ++ accesses last :=
  List.filterMap_append

/-- Whether an instruction uses the segments that hold no variables only where it may: the two
pointers, the element that one of them leads to, and one word that waits. -/
def Instruction.isOrderly : Instruction → Bool
  | .push segment index | .pop segment index =>
    match segment with
    | .temp | .that => index == 0
    | .pointer => index ≤ 1
    | .constant | .locals | .argument | .statics | .this => true
  | _ => true

mutual

/-- The names in an expression that may be those of variables, in the order in which its code comes
to them. A name in front of the dot of a call may also be that of a class. -/
def Expression.references : Expression → List String
  | .mk first more => first.references ++ more.references

def Operators.references : Operators → List String
  | .done => []
  | .more _ operand rest => operand.references ++ rest.references

def Term.references : Term → List String
  | .integer _ | .string _ | .constant _ => []
  | .variable name => [name]
  | .element name index => name :: index.references
  | .call qualifier _ arguments => qualifier.toList ++ arguments.references
  | .parentheses inner => inner.references
  | .unary _ operand => operand.references

def Arguments.references : Arguments → List String
  | .done => []
  | .more first rest => first.references ++ rest.references

end

mutual

/-- The target of an assignment comes last, unless it is an element. -/
def Statement.references : Statement → List String
  | .setVariable name value => value.references ++ [name]
  | .setElement name index value => name :: (index.references ++ value.references)
  | .ifThen condition body | .loop condition body => condition.references ++ body.references
  | .ifElse condition body otherwise =>
    condition.references ++ body.references ++ otherwise.references
  | .doCall qualifier _ arguments => qualifier.toList ++ arguments.references
  | .returnNothing => []
  | .returnValue value => value.references

def Statements.references : Statements → List String
  | .done => []
  | .more first rest => first.references ++ rest.references

end

namespace Environment

/-- The slot of the variable that a name stands for. -/
def slot? (environment : Environment) (name : String) : Option Slot :=
  (environment.lookup? name).map Variable.slot

/-- Code that accesses the variables of some names, one after the other, and no others. -/
structure Uses (environment : Environment) (names : List String) (code : List Instruction) :
    Prop where
  accesses : accesses code = names.filterMap environment.slot?
  orderly : code.all Instruction.isOrderly = true

namespace Uses

variable {environment : Environment} {names others more : List String} {name : String}
  {code last body otherwise : List Instruction}

theorem append (front : environment.Uses names code) (back : environment.Uses others last) :
    environment.Uses (names ++ others) (code ++ last) := by
  constructor
  · rw [accesses_append, front.accesses, back.accesses, List.filterMap_append]
  · rw [List.all_append, front.orderly, back.orderly]
    rfl

/-- Code without any access. -/
theorem idle (noAccess : Jack.accesses code = [])
    (orderly : code.all Instruction.isOrderly = true) :
    environment.Uses [] code :=
  ⟨noAccess, orderly⟩

/-- Code without any access may stand in front of other code, and behind it. -/
theorem after (noAccess : environment.Uses [] code) (uses : environment.Uses names last) :
    environment.Uses names (code ++ last) :=
  noAccess.append uses

theorem before (uses : environment.Uses names code) (noAccess : environment.Uses [] last) :
    environment.Uses names (code ++ last) := by
  have both := uses.append noAccess
  rwa [List.append_nil] at both

/-- A name that stands for no variable is not accessed. -/
theorem unknown (notFound : environment.lookup? name = none) : environment.Uses [name] [] := by
  have noSlot : environment.slot? name = none := by rw [slot?, notFound, Option.map_none]
  refine ⟨?_, rfl⟩
  rw [List.filterMap_cons_none noSlot]
  rfl

theorem single {found : Variable} {instruction : Instruction}
    (known : environment.lookup? name = some found)
    (isSlot : instruction.slot? = some found.slot) (orderly : instruction.isOrderly = true) :
    environment.Uses [name] [instruction] := by
  have slot : environment.slot? name = some found.slot := by rw [slot?, known, Option.map_some]
  constructor
  · rw [List.filterMap_cons_some slot, Jack.accesses, List.filterMap_cons_some isSlot]
    rfl
  · rw [List.all_cons, orderly]
    rfl

theorem push (environment : Environment) (name : String) :
    environment.Uses [name] (environment.push name) := by
  unfold Environment.push
  split
  · rename_i found known
    obtain ⟨type, kind, index⟩ := found
    cases kind <;> exact single known rfl rfl
  · rename_i notFound
    exact unknown notFound

theorem pop (environment : Environment) (name : String) :
    environment.Uses [name] (environment.pop name) := by
  unfold Environment.pop
  split
  · rename_i found known
    obtain ⟨type, kind, index⟩ := found
    cases kind <;> exact single known rfl rfl
  · rename_i notFound
    exact unknown notFound

/-- Only a name in front of the dot may be that of a variable. -/
theorem call (qualifier : Option String) (callee : String) (count : Nat)
    (arguments : environment.Uses names code) :
    environment.Uses (qualifier.toList ++ names)
      (environment.call qualifier callee code count) := by
  have receiver : environment.Uses qualifier.toList (environment.receiver qualifier) := by
    cases qualifier with
    | none => exact idle rfl rfl
    | some name => exact push environment name
  exact (receiver.append arguments).before (idle rfl rfl)

theorem stringCode (text : List Char) : environment.Uses [] (stringCode text) := by
  have chars : environment.Uses [] (text.flatMap fun c => [.push .constant c.toNat,
      .call "String.appendChar" 2]) := by
    induction text with
    | nil => exact idle rfl rfl
    | cons c text ih =>
      have own : environment.Uses [] [.push .constant c.toNat, .call "String.appendChar" 2] :=
        idle rfl rfl
      exact own.after ih
  have made : environment.Uses [] [.push .constant text.length, .call "String.new" 1] :=
    idle rfl rfl
  exact made.after chars

theorem choice (number : Nat) (condition : environment.Uses names code)
    (then_ : environment.Uses others body) (else_ : environment.Uses more otherwise) :
    environment.Uses (names ++ others ++ more)
      (environment.choice number code body otherwise) := by
  have enter (yes no : String) : environment.Uses [] [.ifGoto yes, .goto no, .label yes] :=
    idle rfl rfl
  have change (behind no : String) : environment.Uses [] [.goto behind, .label no] := idle rfl rfl
  have inside (yes no : String) := (condition.before (enter yes no)).append then_
  exact (((inside _ _).before (change _ _)).append else_).before (idle rfl rfl)

theorem loop (number : Nat) (condition : environment.Uses names code)
    (body_ : environment.Uses others body) :
    environment.Uses (names ++ others) (environment.loop number code body) := by
  have start (again : String) : environment.Uses [] [.label again] := idle rfl rfl
  have enter (behind : String) : environment.Uses [] [.operate .not, .ifGoto behind] :=
    idle rfl rfl
  have test (again behind : String) := ((start again).after condition).before (enter behind)
  exact ((test _ _).append body_).before (idle rfl rfl)

end Uses

end Environment

variable (environment : Environment)

theorem BinaryOperator.uses_code (operator : BinaryOperator) :
    environment.Uses [] [operator.code] := by
  cases operator <;> exact .idle rfl rfl

theorem UnaryOperator.uses_code (operator : UnaryOperator) :
    environment.Uses [] [operator.code] := by
  cases operator <;> exact .idle rfl rfl

theorem KeywordConstant.uses_code (word : KeywordConstant) : environment.Uses [] word.code := by
  cases word <;> exact .idle rfl rfl

mutual

/-- The code of a tree accesses the variables that the tree names. -/
theorem Expression.uses_code : (expression : Expression) →
    environment.Uses expression.references (expression.code environment)
  | .mk first more => first.uses_code.append more.uses_code

theorem Operators.uses_code : (operators : Operators) →
    environment.Uses operators.references (operators.code environment)
  | .done => .idle rfl rfl
  | .more operator operand rest =>
    operand.uses_code.append ((operator.uses_code environment).after rest.uses_code)

theorem Term.uses_code : (term : Term) → environment.Uses term.references (term.code environment)
  | .integer _ => .idle rfl rfl
  | .string text => .stringCode text.toList
  | .constant word => word.uses_code environment
  | .variable name => .push environment name
  | .element name index =>
    ((Environment.Uses.push environment name).append index.uses_code).before (.idle rfl rfl)
  | .call qualifier callee arguments => .call qualifier callee _ arguments.uses_code
  | .parentheses inner => inner.uses_code
  | .unary operator operand => operand.uses_code.before (operator.uses_code environment)

theorem Arguments.uses_code : (arguments : Arguments) →
    environment.Uses arguments.references (arguments.code environment)
  | .done => .idle rfl rfl
  | .more first rest => first.uses_code.append rest.uses_code

end

mutual

theorem Statement.uses_code : (statement : Statement) → (numbering : Numbering) →
    environment.Uses statement.references (statement.code environment numbering)
  | .setVariable name value, _ => (value.uses_code environment).append (.pop environment name)
  | .setElement name index value, _ => by
    have add : environment.Uses [] [.operate .add] := .idle rfl rfl
    have store : environment.Uses []
        [.pop .temp 0, .pop .pointer 1, .push .temp 0, .pop .that 0] := .idle rfl rfl
    have address := ((Environment.Uses.push environment name).append
      (index.uses_code environment)).before add
    have both := (address.append (value.uses_code environment)).before store
    rw [List.append_assoc] at both
    exact both
  | .ifThen condition body, numbering => by
    have nothing : environment.Uses [] [] := .idle rfl rfl
    have both := Environment.Uses.choice numbering.ifs (condition.uses_code environment)
      (body.uses_code numbering.choice) nothing
    rw [List.append_nil] at both
    exact both
  | .ifElse condition body otherwise, numbering =>
    .choice _ (condition.uses_code environment) (body.uses_code numbering.choice)
      (otherwise.uses_code (body.numbered numbering.choice))
  | .loop condition body, numbering =>
    .loop _ (condition.uses_code environment) (body.uses_code numbering.loop)
  | .doCall qualifier callee arguments, _ =>
    (Environment.Uses.call qualifier callee _ (arguments.uses_code environment)).before
      (.idle rfl rfl)
  | .returnNothing, _ => .idle rfl rfl
  | .returnValue value, _ => (value.uses_code environment).before (.idle rfl rfl)

theorem Statements.uses_code : (statements : Statements) → (numbering : Numbering) →
    environment.Uses statements.references (statements.code environment numbering)
  | .done, _ => .idle rfl rfl
  | .more first rest, numbering =>
    (first.uses_code numbering).append (rest.uses_code (first.numbered numbering))

end

end Jack
