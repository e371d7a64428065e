import Jack.Proofs.Completeness.Class

namespace Jack

namespace Action

/-- Actions that are never refused and declare nothing. -/
def isSafe : Action → Bool
  | emit _ | mark _ | jump _ | jumpIf _ | unnest | receiver _ | call .. => true
  | _ => false

/-- Actions that declare nothing. -/
def isInner : Action → Bool
  | nameClass _ | declare .. | closeVariables | beginSubroutine .. | beginBody => false
  | _ => true

theorem isInner_of_isSafe {action : Action} (safe : action.isSafe = true) :
    action.isInner = true := by
  cases action <;> first | rfl | cases safe

end Action

namespace Generator

/-- Two generators in the same class and with the same variables. -/
structure SameNames (generator later : Generator) : Prop where
  className : later.className = generator.className
  scope : later.scope = generator.scope

theorem SameNames.refl (generator : Generator) : generator.SameNames generator :=
  ⟨rfl, rfl⟩

theorem SameNames.trans {generator middle later : Generator} (front : generator.SameNames middle)
    (back : middle.SameNames later) : generator.SameNames later :=
  ⟨back.className.trans front.className, back.scope.trans front.scope⟩

variable {limit : Nat} {generator later : Generator} {action : Action} {actions : List Action}
  {error : CompileError}

theorem result_singleton (limit : Nat) (generator : Generator) (action : Action) :
    (generator.performAll limit [action]).2 = (generator.perform limit action).2 := by
  rw [performAll_cons]
  rcases generator.perform limit action with ⟨events, error | later⟩ <;> rfl

theorem result_withVariable (generator : Generator) (name : Token)
    (code : Variable → List Instruction) :
    (generator.withVariable name fun found => generator.emit (code found)).2 =
      if generator.environment.declared name.lexeme then .ok generator
      else .error (.undefined name.line name.lexeme) := by
  unfold withVariable
  split <;> rename_i found <;> simp [Environment.declared, environment, found, emit, refuse]

theorem perform_isSafe (limit : Nat) (generator : Generator) (safe : action.isSafe = true) :
    ∃ later, (generator.perform limit action).2 = .ok later := by
  cases action <;> first | exact ⟨_, rfl⟩ | cases safe

theorem sameNames_perform (inner : action.isInner = true)
    (done : (generator.perform limit action).2 = .ok later) : generator.SameNames later := by
  cases action with
  | nameClass | declare | closeVariables | beginSubroutine | beginBody => cases inner
  | resolve name | load name | store name =>
    simp only [perform, result_withVariable] at done
    split at done <;> cases done
    exact .refl _
  | integer constant =>
    rw [perform_integer] at done
    repeat' split at done
    all_goals cases done
    exact .refl _
  | string constant =>
    rw [perform, string_eq] at done
    repeat' split at done
    all_goals cases done
    exact .refl _
  | nest line | argument call count =>
    simp only [perform] at done
    split at done <;> cases done
    exact ⟨rfl, rfl⟩
  | _ =>
    cases done
    exact ⟨rfl, rfl⟩

theorem performAll_isSafe (limit : Nat) (generator : Generator)
    (safe : actions.all Action.isSafe = true) :
    ∃ later, (generator.performAll limit actions).2 = .ok later := by
  induction actions generalizing generator with
  | nil => exact ⟨generator, rfl⟩
  | cons action actions ih =>
    obtain ⟨first, others⟩ := Bool.and_eq_true_iff.1 safe
    obtain ⟨middle, done⟩ := generator.perform_isSafe limit first
    obtain ⟨later, rest⟩ := ih middle others
    rw [performAll_cons]
    rcases performed : generator.perform limit action with ⟨events, error | reached⟩
    · rw [performed] at done
      cases done
    · rw [performed] at done
      cases done
      exact ⟨later, rest⟩

theorem sameNames_performAll (inner : actions.all Action.isInner = true)
    (done : (generator.performAll limit actions).2 = .ok later) : generator.SameNames later := by
  induction actions generalizing generator with
  | nil =>
    cases done
    exact .refl _
  | cons action actions ih =>
    obtain ⟨first, others⟩ := Bool.and_eq_true_iff.1 inner
    rw [performAll_cons] at done
    rcases performed : generator.perform limit action with ⟨events, error | middle⟩
    · rw [performed] at done
      cases done
    · rw [performed] at done
      exact (sameNames_perform first (congrArg Prod.snd performed)).trans (ih others done)

/-- A name that is known to be a variable is never refused. -/
theorem perform_of_declared (limit : Nat) {name : Token}
    (isKnown : generator.environment.declared name.lexeme = true) :
    (generator.perform limit (.load name)).2 = .ok generator ∧
      (generator.perform limit (.store name)).2 = .ok generator := by
  simp only [perform, result_withVariable, if_pos isKnown, and_self]

/-- A name that has to be a variable is refused if it is none. -/
theorem refused_variable {name : Token} {code : Variable → List Instruction}
    (acts : generator.perform limit action =
      generator.withVariable name fun found => generator.emit (code found))
    (refused : (generator.perform limit action).2 = .error error) :
    error = .undefined name.line name.lexeme ∧
      generator.environment.declared name.lexeme = false := by
  rw [acts, result_withVariable] at refused
  split at refused <;> cases refused
  exact ⟨rfl, Bool.not_eq_true _ ▸ ‹_›⟩

/-- A number is refused where it is too large for a constant. -/
theorem refused_integer {constant : Token} {value : Nat}
    (reads : constant.literal.bind Literal.number? = if value ≤ 65535 then some value else none)
    (refused : (generator.perform limit (.integer constant)).2 = .error error) :
    error = .constantRange constant.line constant.lexeme ∧ 32767 < value := by
  rw [perform_integer, reads] at refused
  by_cases fits : value ≤ 65535
  · simp only [if_pos fits] at refused
    split at refused <;> cases refused
    exact ⟨rfl, Nat.lt_of_not_le ‹_›⟩
  · simp only [if_neg fits] at refused
    cases refused
    exact ⟨rfl, by omega⟩

theorem refused_string {constant : Token} {text : String}
    (holds : constant.literal = some (.text text))
    (refused : (generator.perform limit (.string constant)).2 = .error error) :
    error = .constantRange constant.line constant.lexeme ∧
      (32767 < text.length ∨ ∃ c ∈ text.toList, 32767 < c.toNat) := by
  have isText : textOf constant = text.toList := by rw [textOf, holds]; rfl
  rw [perform, string_eq, isText] at refused
  split at refused
  · rename_i long
    cases refused
    exact ⟨rfl, .inl (String.length_toList ▸ long)⟩
  · split at refused <;> cases refused
    rename_i wide
    obtain ⟨c, member, large⟩ := List.all_eq_false.1 (Bool.not_eq_true _ ▸ wide)
    exact ⟨rfl, .inr ⟨c, member, Nat.lt_of_not_le fun small => large (decide_eq_true small)⟩⟩

theorem refused_nest {line : Nat}
    (refused : (generator.perform limit (.nest line)).2 = .error error) :
    error = .nestingTooDeep line limit := by
  simp only [perform] at refused
  split at refused <;> cases refused
  rfl

theorem refused_argument {call : Call} {count : Nat}
    (refused : (generator.perform limit (.argument call count)).2 = .error error) :
    error = .tooManyArguments call.callee.line call.callee.lexeme ∧
      65535 < receivers generator.environment.declared (Call.qualifierName call) + count := by
  simp only [perform] at refused
  split at refused <;> cases refused
  rename_i many
  exact ⟨rfl, argumentCount_eq generator call count ▸ many⟩

/-- What comes of actions: a generator of which something holds, or an error of which something
holds. -/
def Answers (limit : Nat) (generator : Generator) (actions : List Action)
    (holds : Generator → Prop) (blames : CompileError → Prop) : Prop :=
  match (generator.performAll limit actions).2 with
  | .ok later => holds later
  | .error error => blames error

namespace Answers

variable {holds holds' : Generator → Prop} {blames blames' : CompileError → Prop}

theorem of_ok (answers : generator.Answers limit actions holds blames)
    (done : (generator.performAll limit actions).2 = .ok later) : holds later := by
  rw [Answers, done] at answers
  exact answers

theorem of_error (answers : generator.Answers limit actions holds blames)
    (refused : (generator.performAll limit actions).2 = .error error) : blames error := by
  rw [Answers, refused] at answers
  exact answers

theorem mono (answers : generator.Answers limit actions holds blames)
    (success : ∀ later, holds later → holds' later)
    (failure : ∀ error, blames error → blames' error) :
    generator.Answers limit actions holds' blames' := by
  unfold Answers at answers ⊢
  split at answers
  · exact success _ answers
  · exact failure _ answers

end Answers

theorem Performs.answers {events : List Event} {holds : Generator → Prop}
    {blames : CompileError → Prop} (performs : Performs limit generator actions True events later)
    (isLater : holds later) : generator.Answers limit actions holds blames := by
  rw [Answers, performs.success trivial]
  exact isLater

/-- The innermost scope holds declarations that it took. -/
structure Holds (generator : Generator) (className : String) (inner : List Declaration)
    (outer : List ScopeLevel) : Prop where
  className : generator.className = className
  scope : generator.scope = ⟨.ofDeclarations inner, outer⟩
  accepted : Declaration.Accepted inner

namespace Holds

variable {className : String} {declared : List Declaration} {outer : List ScopeLevel}

theorem sameNames (holds : generator.Holds className declared outer)
    (same : generator.SameNames later) : later.Holds className declared outer :=
  ⟨same.className.trans holds.className, same.scope.trans holds.scope, holds.accepted⟩

/-- The names that stand for variables are those that either scope declares. -/
theorem declared_eq {inner declarations : List Declaration}
    (holds : generator.Holds className inner [.ofDeclarations declarations]) (name : String) :
    generator.environment.declared name = (inner ++ declarations).any (·.name = name) := by
  rw [← declared_holding generator]
  simp only [Environment.declared, environment, holds.scope, holding]

variable {kind : VarKind} {type : String} {name : Token}

theorem perform_declare (holds : generator.Holds className declared outer) (limit : Nat)
    (kind : VarKind) (type : String) (name : Token) (level : kind.isClassLevel = outer.isEmpty) :
    (generator.perform limit (.declare kind type name)).2 =
      if name.lexeme ∈ declared.map Declaration.name then
        .error (.declaration name.line (.redefined name.lexeme))
      else if 65535 ≤ Declaration.count kind declared then
        .error (.declaration name.line (.tooMany name.lexeme kind))
      else .ok (generator.holding (declared ++ [⟨kind, type, name.lexeme⟩]) outer) := by
  simp only [perform, declare, holds.scope, Scope.define_ofDeclarations type name.lexeme level]
  by_cases known : name.lexeme ∈ declared.map Declaration.name
  · simp only [if_pos known]
    rfl
  · by_cases full : 65535 ≤ Declaration.count kind declared
    · simp only [if_neg known, if_pos full]
      rfl
    · simp only [if_neg known, if_neg full]
      rfl

theorem declare (holds : generator.Holds className declared outer)
    (level : kind.isClassLevel = outer.isEmpty)
    (done : (generator.performAll limit [.declare kind type name]).2 = .ok later) :
    later.Holds className (declared ++ [⟨kind, type, name.lexeme⟩]) outer := by
  rw [result_singleton, holds.perform_declare limit kind type name level] at done
  split at done
  · cases done
  · split at done <;> cases done
    rename_i fresh room
    exact ⟨holds.className, rfl, (Declaration.accepted_append_singleton ..).2
      ⟨holds.accepted, fresh, Nat.lt_of_not_le room⟩⟩

/-- A declaration is refused for a name that its scope declares already, or behind as many of its
kind as a scope takes. -/
theorem refused_declare (holds : generator.Holds className declared outer)
    (level : kind.isClassLevel = outer.isEmpty)
    (refused : (generator.performAll limit [.declare kind type name]).2 = .error error) :
    error = .declaration name.line (.redefined name.lexeme) ∧
        name.lexeme ∈ declared.map Declaration.name ∨
      error = .declaration name.line (.tooMany name.lexeme kind) ∧
        name.lexeme ∉ declared.map Declaration.name ∧ Declaration.count kind declared = 65535 := by
  rw [result_singleton, holds.perform_declare limit kind type name level] at refused
  split at refused
  · cases refused
    exact .inl ⟨rfl, ‹_›⟩
  · split at refused <;> cases refused
    rename_i fresh full
    exact .inr ⟨rfl, fresh, Nat.le_antisymm (holds.accepted.within kind) full⟩

end Holds

end Generator

end Jack
