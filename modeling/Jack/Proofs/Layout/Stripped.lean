import Jack.Proofs.Recognition

namespace Jack

def Token.Kind.isConstant : Token.Kind → Bool
  | integer | string => true
  | keyword _ | symbol _ | identifier => false

namespace Token

/-- The token without its place. -/
def unplaced (token : Token) : Token :=
  { token with span := ⟨0, 0⟩, line := 0, startColumn := 0, endColumn := 0 }

/-- The token without its place and its text. -/
def unspelt (token : Token) : Token :=
  { token.unplaced with lexeme := "" }

/-- The token without its place, and without its text if this is a constant. -/
def stripped (token : Token) : Token :=
  if token.kind.isConstant then token.unspelt else token.unplaced

theorem kind_stripped (token : Token) : token.stripped.kind = token.kind := by
  unfold stripped
  split <;> rfl

theorem stripped_of_mem {token : Token} {kinds : List Kind} (is : token.kind ∈ kinds)
    (noConstants : ∀ kind ∈ kinds, kind.isConstant = false) : token.stripped = token.unplaced :=
  if_neg (by rw [noConstants _ is]; exact Bool.false_ne_true)

theorem stripped_of_identifier {token : Token} (is : token.kind = .identifier) :
    token.stripped = token.unplaced :=
  if_neg (by rw [is]; exact Bool.false_ne_true)

theorem stripped_of_isConstant {token : Token} (is : token.kind.isConstant = true) :
    token.stripped = token.unspelt :=
  if_pos is

end Token

def Call.unplaced (call : Call) : Call :=
  ⟨call.qualifier.map Token.unplaced, call.callee.unplaced⟩

/-- The action without the places and the constants that it names. -/
def Action.stripped : Action → Action
  | .declare kind type name => .declare kind type name.unplaced
  | .beginSubroutine kind name => .beginSubroutine kind name.unplaced
  | .resolve name => .resolve name.unplaced
  | .load name => .load name.unplaced
  | .store name => .store name.unplaced
  | .integer constant => .integer constant.unspelt
  | .string constant => .string constant.unspelt
  | .nest _ => .nest 0
  | .receiver made => .receiver made.unplaced
  | .argument made count => .argument made.unplaced count
  | .call made count => .call made.unplaced count
  | .nameClass name => .nameClass name
  | .closeVariables => .closeVariables
  | .beginBody => .beginBody
  | .emit instruction => .emit instruction
  | .mark point => .mark point
  | .jump point => .jump point
  | .jumpIf point => .jumpIf point
  | .unnest => .unnest

/-- The constant that an action is about. -/
def Action.constant? : Action → Option Token
  | .integer constant | .string constant => some constant
  | _ => none

namespace Goal

/-- The goal without the places of the names that it waits with. -/
def stripped : Goal → Goal
  | .perform actions => .perform (actions.map Action.stripped)
  | .letTarget name => .letTarget name.unplaced
  | .nameTail name => .nameTail name.unplaced
  | .callTail name => .callTail name.unplaced
  | .calleeName qualifier => .calleeName qualifier.unplaced
  | .openCall call => .openCall call.unplaced
  | .arguments call => .arguments call.unplaced
  | .moreArguments call count => .moreArguments call.unplaced count
  | goal => goal

def Step.stripped (step : Step) : Step :=
  ⟨step.actions.map Action.stripped, step.goals.map Goal.stripped⟩

variable {token name : Token}

theorem takeCall?_stripped (token name : Token) :
    takeCall? token.stripped name.unplaced = (takeCall? token name).map Step.stripped := by
  unfold takeCall?
  rw [token.kind_stripped]
  split <;> rfl

theorem takeStatement?_stripped (numbering : Numbering) (token : Token) :
    takeStatement? numbering token.stripped =
      (takeStatement? numbering token).map Step.stripped := by
  unfold takeStatement?
  rw [token.kind_stripped]
  split <;> rfl

theorem takeTerm?_stripped (token : Token) :
    takeTerm? token.stripped = (takeTerm? token).map Step.stripped := by
  unfold takeTerm?
  rw [token.kind_stripped]
  cases is : token.kind with
  | integer | string =>
    rw [Token.stripped_of_isConstant (by rw [is]; rfl)]
    rfl
  | identifier =>
    rw [Token.stripped_of_identifier is]
    rfl
  | keyword word => cases word <;> rfl
  | symbol mark => cases mark <;> rfl

theorem noConstants_typeKinds :
    ∀ kind ∈ Token.Kind.keyword .kwVoid :: typeKinds, kind.isConstant = false := by
  decide

/-- A stripped goal takes a stripped token as it takes the token. -/
theorem take?_stripped (goal : Goal) (numbering : Numbering) (token : Token) :
    goal.stripped.take? numbering token.stripped =
      (goal.take? numbering token).map Step.stripped := by
  have named : token.kind = .identifier → token.stripped = token.unplaced :=
    Token.stripped_of_identifier
  have typed (is : token.kind ∈ typeKinds) : token.stripped.lexeme = token.lexeme := by
    rw [Token.stripped_of_mem (List.mem_cons_of_mem _ is) noConstants_typeKinds]
    rfl
  cases goal with
  | statements => exact takeStatement?_stripped numbering token
  | term => exact takeTerm?_stripped token
  | callTail name => exact takeCall?_stripped token name
  | nameTail name =>
    simp only [take?, stripped, token.kind_stripped]
    split
    · rfl
    · exact takeCall?_stripped token name
  | operators =>
    simp only [take?, stripped, token.kind_stripped]
    split
    · rename_i mark _
      cases mark <;> rfl
    · rfl
  | declaration | parameterType =>
    simp only [take?, stripped, token.kind_stripped]
    split
    · rename_i is
      rw [typed is]
      rfl
    · rfl
  | parameters =>
    simp only [take?, stripped, token.kind_stripped]
    split
    · rfl
    · split
      · rename_i is
        rw [typed is]
        rfl
      · rfl
  | _ =>
    simp only [take?, stripped, token.kind_stripped]
    repeat' split
    all_goals
      first
      | rfl
      | rename_i is
        rw [named is]
        rfl

/-- Without the next token it asks for the same, on any line. -/
theorem otherwise_stripped (goal : Goal) (line : Nat) :
    (goal.otherwise line).map Step.stripped = goal.stripped.otherwise 0 := by
  cases goal <;> rfl

/-- Whether a goal waits with nothing about constants. -/
def isFree : Goal → Bool
  | .perform actions => actions.all fun action => action.constant?.isNone
  | _ => true

/-- What a step is about if it takes a token: no other constant than this one. -/
structure Step.About (step : Step) (token : Token) : Prop where
  actions : ∀ action ∈ step.actions, ∀ constant, action.constant? = some constant →
    constant = token ∧ token.kind.isConstant = true
  goals : step.goals.all isFree = true

/-- A step without constants. -/
theorem Step.About.of_none {step : Step}
    (noConstants : step.actions.all (·.constant?.isNone) = true)
    (free : step.goals.all isFree = true) (token : Token) : step.About token := by
  refine ⟨fun action member constant is => ?_, free⟩
  have isNone := List.all_eq_true.1 noConstants action member
  rw [is] at isNone
  cases isNone

theorem Step.About.constant {step : Step} {token : Token} {action : Action}
    (actions : step.actions = [action]) (goals : step.goals = [])
    (is : action.constant? = some token)
    (kind : token.kind.isConstant = true) : step.About token := by
  constructor
  · intro other member constant isOther
    rw [actions] at member
    rw [List.mem_singleton.1 member, is] at isOther
    exact ⟨(Option.some.inj isOther).symm, kind⟩
  · rw [goals]
    rfl

variable {step : Step} {numbering : Numbering} {goal : Goal}

theorem about_takeCall? (took : takeCall? token name = some step) : step.About token := by
  unfold takeCall? at took
  split at took <;> cases took <;> exact .of_none rfl rfl token

theorem about_takeStatement? (took : takeStatement? numbering token = some step) :
    step.About token := by
  unfold takeStatement? at took
  split at took <;> cases took <;> exact .of_none rfl rfl token

theorem about_takeTerm? (took : takeTerm? token = some step) : step.About token := by
  unfold takeTerm? at took
  split at took <;> cases took
  case h_1 is => exact .constant rfl rfl rfl (by rw [is]; rfl)
  case h_2 is => exact .constant rfl rfl rfl (by rw [is]; rfl)
  all_goals exact .of_none rfl rfl token

/-- A constant is asked for where it is taken, and never later. -/
theorem about_take? (took : goal.take? numbering token = some step) : step.About token := by
  cases goal with
  | statements => exact about_takeStatement? took
  | term => exact about_takeTerm? took
  | callTail name => exact about_takeCall? took
  | nameTail name =>
    simp only [take?] at took
    split at took
    · cases took
      exact .of_none rfl rfl token
    · exact about_takeCall? took
  | operators =>
    simp only [take?] at took
    split at took
    · obtain ⟨instruction, -, rfl⟩ := Option.map_eq_some_iff.1 took
      exact .of_none rfl rfl token
    · cases took
  | _ =>
    simp only [take?] at took
    repeat' split at took
    all_goals
      cases took
    all_goals
      exact .of_none rfl rfl token

theorem free_otherwise {line : Nat} (free : goal.isFree = true)
    (moved : goal.otherwise line = .ok step) :
    step.actions.all (·.constant?.isNone) = true ∧ step.goals.all isFree = true := by
  cases goal with
  | perform actions =>
    cases moved
    exact ⟨free, rfl⟩
  | _ => cases moved <;> exact ⟨rfl, rfl⟩

end Goal

namespace CompileError

/-- The error without its line, and without the constant that it names. -/
def stripped : CompileError → CompileError
  | unexpected error => unexpected error
  | declaration _ error => declaration 0 error
  | undefined _ name => undefined 0 name
  | constantRange _ _ => constantRange 0 ""
  | tooManyArguments _ callee => tooManyArguments 0 callee
  | nestingTooDeep _ limit => nestingTooDeep 0 limit

end CompileError

namespace Generator

variable (generator : Generator)

/-- What comes of an action, with the error that it may end in stripped. -/
def Outcome.stripped (outcome : Outcome) : Outcome :=
  (outcome.1, outcome.2.mapError CompileError.stripped)

theorem declare_stripped (kind : VarKind) (type name : String) (line : Nat) :
    generator.declare kind type name 0 =
      (generator.declare kind type name line).stripped := by
  unfold declare
  split <;> rfl

theorem withVariable_stripped (name : Token) {use : Variable → Outcome}
    (same : ∀ found, (use found).stripped = use found) :
    generator.withVariable name.unplaced use = (generator.withVariable name use).stripped := by
  have lexeme : name.unplaced.lexeme = name.lexeme := rfl
  unfold withVariable
  rw [lexeme]
  split
  · exact (same _).symm
  · rfl

theorem receiver?_unplaced (scope : Scope) (call : Call) :
    receiver? scope call.unplaced = receiver? scope call := by
  obtain ⟨_ | qualifier, callee⟩ := call <;> rfl

theorem calleeClass_unplaced (call : Call) :
    generator.calleeClass call.unplaced = generator.calleeClass call := by
  obtain ⟨_ | qualifier, callee⟩ := call <;> rfl

theorem argumentCount_unplaced (call : Call) (count : Nat) :
    generator.argumentCount call.unplaced count = generator.argumentCount call count := by
  rw [argumentCount, argumentCount, receiver?_unplaced]

/-- Stripped actions come to the same. -/
theorem perform_stripped (limit : Nat) (action : Action) :
    generator.perform limit action.stripped = (generator.perform limit action).stripped := by
  cases action with
  | declare kind type name => exact generator.declare_stripped kind type name.lexeme name.line
  | beginSubroutine kind name =>
    cases kind with
    | method => exact declare_stripped _ .argument _ "this" name.line
    | constructor | function => rfl
  | resolve name => exact generator.withVariable_stripped name fun _ => rfl
  | load name => exact generator.withVariable_stripped name fun _ => rfl
  | store name => exact generator.withVariable_stripped name fun _ => rfl
  | integer constant =>
    have literal : constant.unspelt.literal = constant.literal := rfl
    simp only [perform, Action.stripped, literal]
    repeat' split
    all_goals rfl
  | string constant =>
    have literal : constant.unspelt.literal = constant.literal := rfl
    simp only [perform, Action.stripped, string, literal]
    repeat' split
    all_goals rfl
  | nest line =>
    simp only [perform, Action.stripped]
    split <;> rfl
  | receiver call =>
    simp only [perform, Action.stripped, receiver?_unplaced]
    rfl
  | argument call count =>
    simp only [perform, Action.stripped, argumentCount_unplaced]
    split <;> rfl
  | call call count =>
    simp only [perform, Action.stripped, argumentCount_unplaced, calleeClass_unplaced]
    rfl
  | _ => rfl

/-- A constant out of range is one that an action is about. -/
theorem constant?_of_constantRange {limit line : Nat} {action : Action} {lexeme : String}
    (refused : (generator.perform limit action).2 = .error (.constantRange line lexeme)) :
    ∃ constant, action.constant? = some constant ∧ line = constant.line ∧
      lexeme = constant.lexeme := by
  cases action with
  | integer constant =>
    refine ⟨constant, rfl, ?_⟩
    simp only [perform] at refused
    repeat' split at refused
    all_goals cases refused
    all_goals exact ⟨rfl, rfl⟩
  | string constant =>
    refine ⟨constant, rfl, ?_⟩
    simp only [perform, string] at refused
    repeat' split at refused
    all_goals cases refused
    all_goals exact ⟨rfl, rfl⟩
  | declare kind type name =>
    simp only [perform, declare] at refused
    split at refused <;> cases refused
  | beginSubroutine kind name =>
    simp only [perform, beginSubroutine, declare] at refused
    repeat' split at refused
    all_goals cases refused
  | resolve | load | store =>
    simp only [perform, withVariable] at refused
    split at refused <;> cases refused
  | nest | argument =>
    simp only [perform] at refused
    split at refused <;> cases refused
  | _ => cases refused

end Generator

end Jack
