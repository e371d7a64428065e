import Jack.Proofs.Assembly
import Jack.Proofs.Constants
import Jack.Proofs.Diagnosis.Refusals
import Jack.Proofs.Names
import Jack.Proofs.Partition
import Mathlib.Data.List.Chain

namespace Jack

/-- A text that may be a part of a name. -/
def Legible (text : String) : Prop :=
  ∀ c ∈ text.toList, Instruction.isNameChar c = true

instance (text : String) : Decidable (Legible text) :=
  decidable_of_iff (text.toList.all Instruction.isNameChar = true) List.all_eq_true

namespace Legible

variable {first last : String}

theorem append (front : Legible first) (back : Legible last) : Legible (first ++ last) := by
  rw [Legible, String.toList_append]
  exact List.forall_mem_append.2 ⟨front, back⟩

theorem repr (value : Nat) : Legible value.repr := by
  intro c member
  rw [Nat.toList_repr] at member
  have digit : c.isDigit = true := Nat.isDigit_of_mem_toDigits (by decide) le_rfl member
  rw [Instruction.isNameChar, Piece.isWordChar, digit, Bool.or_true]
  rfl

/-- The name of a subroutine behind that of its class. -/
theorem qualified (front : Legible first) (back : Legible last) :
    Instruction.IsName (first ++ "." ++ last) where
  nonempty empty := by
    have dot := (String.append_eq_empty_iff.1 (String.append_eq_empty_iff.1 empty).1).2
    exact absurd dot (by decide)
  chars := (front.append (by decide)).append back

theorem label (legible : Legible first) (point : BranchPoint) :
    Instruction.IsName (point.label first) where
  nonempty empty := by
    have spelt := congrArg String.toList empty
    rw [BranchPoint.toList_label] at spelt
    simp at spelt
  chars := by
    have tag : Legible point.tag.text := by cases point.tag <;> decide
    have dollar : Legible "$" := by decide
    have bar : Legible "_" := by decide
    have whole := (((legible.append dollar).append tag).append bar).append (repr point.number)
    exact whole

end Legible

/-- The words of a source text of which names and types consist. -/
def Token.Legible (token : Token) : Prop :=
  token.kind ∈ Goal.typeKinds → Jack.Legible token.lexeme

theorem Piece.Reads.legible {piece : Piece} {kind : Token.Kind} {literal : Option Literal}
    {rest : List Char} (reads : piece.Reads kind literal) (fits : piece.Fits rest)
    (place : Position) : (Token.at place kind literal piece.text).Legible := by
  intro isType c member
  cases reads with
  | keyword word =>
    rw [Token.at, String.toList_ofList] at member
    have chars : word.text.toList.all Instruction.isNameChar = true := by cases word <;> decide
    exact List.all_eq_true.1 chars c member
  | identifier notKeyword =>
    rw [Token.at, String.toList_ofList] at member
    rw [Instruction.isNameChar, fits.2.1 c member]
    rfl
  | _ => simp [Token.at, Goal.typeKinds] at isType

theorem Scans.legible {place : Position} {text : List Char} {tokens : List Token}
    {warnings : List Warning} (scans : Scans place text tokens warnings) :
    ∀ token ∈ tokens, token.Legible := by
  induction scans with
  | nothing => exact List.forall_mem_nil _
  | skip _ _ _ ih => exact ih
  | token reads fits _ ih => exact List.forall_mem_cons.2 ⟨reads.legible fits _, ih⟩

theorem Finding.legible_ofSource (source : String) :
    ∀ token ∈ tokens (ofSource source), token.Legible :=
  (Scans.of_cut .start source.toList).legible

/-- Something holds of all variables that a name can stand for. -/
def Scope.Every (scope : Scope) (holds : Variable → Prop) : Prop :=
  ∀ level ∈ scope.inner :: scope.outer, ∀ (name : String) (found : Variable),
    level.declared[name]? = some found → holds found

namespace Scope

variable {scope later : Scope} {holds : Variable → Prop}

theorem Every.lookup? {name : String} {found : Variable} (every : scope.Every holds)
    (isFound : scope.lookup? name = some found) : holds found := by
  obtain ⟨level, member, isHere⟩ := List.exists_of_findSome?_eq_some isFound
  exact every level member name found isHere

theorem Every.define {name type : String} {kind : VarKind} (every : scope.Every holds)
    (defined : scope.define name type kind = .ok later)
    (own : scope.count kind < 65535 → holds ⟨type, kind, scope.count kind⟩) :
    later.Every holds := by
  unfold Scope.define at defined
  repeat' split at defined
  all_goals cases defined
  rename_i room
  obtain ⟨inner, outer⟩ := List.forall_mem_cons.1 every
  refine List.forall_mem_cons.2 ⟨fun other found isFound => ?_, outer⟩
  rw [Std.TreeMap.getElem?_insert] at isFound
  split at isFound
  · cases isFound
    exact own (Nat.lt_of_not_le room)
  · exact inner other found isFound

end Scope

/-- The names of a call may stand in an instruction. -/
structure Call.Legible (call : Call) : Prop where
  callee : Jack.Legible call.callee.lexeme
  qualifier : ∀ name ∈ call.qualifier, Jack.Legible name.lexeme

/-- What is known in the middle of a class may stand in an instruction. -/
structure Generator.Legible (generator : Generator) : Prop where
  className : Jack.Legible generator.className
  name : Jack.Legible generator.name
  fields : generator.fields ≤ 65535
  counted : ∀ kind, generator.scope.count kind ≤ 65535
  declared : generator.scope.Every fun found => Jack.Legible found.type ∧ found.index < 65536

/-- What an action brings may stand in an instruction. -/
def Action.Legible (generator : Generator) : Action → Prop
  | .nameClass name => Jack.Legible name
  | .declare _ type _ => Jack.Legible type
  | .beginSubroutine _ name => Jack.Legible name.lexeme
  | .emit instruction => instruction.WellFormed
  | .call target count => target.Legible ∧ generator.argumentCount target count ≤ 65535
  | _ => True

def Event.WellFormed (event : Event) : Prop :=
  ∀ instruction ∈ event.instruction?, instruction.WellFormed

namespace Generator

variable {limit : Nat} {generator later : Generator} {action : Action} {events : List Event}

/-- An outcome whose instructions are well formed. -/
structure LegibleOutcome (outcome : Outcome) : Prop where
  events : ∀ event ∈ outcome.1, event.WellFormed
  later : ∀ later, outcome.2 = .ok later → later.Legible

namespace Legible

theorem start : start.Legible where
  className := by decide
  name := by decide
  fields := Nat.zero_le _
  counted kind := by cases kind <;> exact Nat.zero_le _
  declared := List.forall_mem_singleton.2 fun name found isFound => by cases isFound

theorem refuse (error : CompileError) : LegibleOutcome (refuse error) :=
  ⟨List.forall_mem_nil _, fun _ none => by cases none⟩

theorem emit (legible : generator.Legible) {code : List Instruction}
    (wellFormed : ∀ instruction ∈ code, instruction.WellFormed) :
    LegibleOutcome (generator.emit code) where
  events := List.forall_mem_map.2 fun instruction member _ same =>
    Option.some.inj same ▸ wellFormed instruction member
  later _ same := Except.ok.inj same ▸ legible

theorem withVariable (legible : generator.Legible) (name : Token)
    {code : Variable → List Instruction}
    (wellFormed : ∀ found : Variable, found.index < 65536 →
      ∀ instruction ∈ code found, instruction.WellFormed) :
    LegibleOutcome (generator.withVariable name fun found => generator.emit (code found)) := by
  unfold Generator.withVariable
  split
  · rename_i found isFound
    exact legible.emit (wellFormed found (legible.declared.lookup? isFound).2)
  · exact refuse _

theorem declare (legible : generator.Legible) (kind : VarKind) {type : String}
    (isType : Jack.Legible type) (name : String) (line : Nat) :
    LegibleOutcome (generator.declare kind type name line) := by
  unfold Generator.declare
  split
  · rename_i scope defined
    refine ⟨List.forall_mem_nil _, fun later same => ?_⟩
    obtain rfl := Except.ok.inj same
    exact { legible with
      counted := Scope.count_le_of_define legible.counted defined
      declared := legible.declared.define defined fun room => ⟨isType, Nat.lt_succ_of_lt room⟩ }
  · exact refuse _

theorem beginSubroutine (legible : generator.Legible) (kind : SubroutineKind) {name : Token}
    (isName : Jack.Legible name.lexeme) : LegibleOutcome (generator.beginSubroutine kind name) := by
  have empty (name : String) (found : Variable)
      (isFound : ScopeLevel.empty.declared[name]? = some found) :
      Jack.Legible found.type ∧ found.index < 65536 := by cases isFound
  have fresh : Generator.Legible { generator with
      kind, name := name.lexeme
      scope := if generator.scope.isSubroutine then generator.scope.reset
        else generator.scope.enter
      subroutines := generator.subroutines + 1 } := by
    refine ⟨legible.className, isName, legible.fields, fun other => ?_, ?_⟩
    · split <;> cases other <;> exact Nat.zero_le _
    · split
      · exact List.forall_mem_cons.2 ⟨empty, (List.forall_mem_cons.1 legible.declared).2⟩
      · exact List.forall_mem_cons.2 ⟨empty, legible.declared⟩
  cases kind with
  | method => exact fresh.declare .argument legible.className "this" name.line
  | constructor | function =>
    exact ⟨List.forall_mem_nil _, fun later same => Except.ok.inj same ▸ fresh⟩

theorem wellFormed_prologue (legible : generator.Legible) (kind : SubroutineKind) :
    ∀ instruction ∈ prologue kind generator.fields, instruction.WellFormed := by
  have fields := legible.fields
  cases kind with
  | constructor =>
    refine List.forall_mem_cons.2 ⟨Nat.lt_succ_of_le fields, ?_⟩
    decide
  | method =>
    show ∀ instruction ∈ [Instruction.push .argument 0, .pop .pointer 0], instruction.WellFormed
    decide
  | function => exact List.forall_mem_nil _

theorem beginBody (legible : generator.Legible) : LegibleOutcome generator.beginBody where
  events := by
    have name := Legible.qualified legible.className legible.name
    have locals := Nat.lt_succ_of_le (legible.counted .locals)
    refine List.forall_mem_cons.2 ⟨fun _ none => absurd none (Option.not_mem_none _), ?_⟩
    refine List.forall_mem_cons.2 ⟨fun _ same => Option.some.inj same ▸ ⟨name, locals⟩, ?_⟩
    exact List.forall_mem_map.2 fun instruction member _ same =>
      Option.some.inj same ▸ legible.wellFormed_prologue _ instruction member
  later _ same := Except.ok.inj same ▸ legible

theorem string (legible : generator.Legible) (constant : Token) :
    LegibleOutcome (generator.string constant) := by
  rw [string_eq]
  split
  · exact refuse _
  rename_i short
  have length : (textOf constant).length < 65536 := by
    rw [maxConstant] at short
    omega
  refine ⟨List.forall_mem_map.2 fun instruction member _ same => ?_, fun later same => ?_⟩
  · obtain rfl := Option.some.inj same
    rcases List.mem_append.1 member with made | filled
    · rcases List.mem_cons.1 made with rfl | made
      · exact length
      · obtain rfl := List.mem_singleton.1 made
        decide
    · obtain ⟨c, isChar, isOne⟩ := List.mem_flatMap.1 filled
      have fits : fitsConstant c = true := List.mem_takeWhile_imp isChar
      rcases List.mem_cons.1 isOne with rfl | isOne
      · exact Nat.lt_of_le_of_lt (of_decide_eq_true fits) (by decide)
      · obtain rfl := List.mem_singleton.1 isOne
        decide
  · split at same <;> cases same
    exact legible

theorem receiver (legible : generator.Legible) (call : Call) :
    LegibleOutcome (generator.emit (receiver? generator.scope call).toList) := by
  refine legible.emit fun instruction member => ?_
  have isReceiver : receiver? generator.scope call = some instruction :=
    Option.mem_toList.1 member
  unfold receiver? at isReceiver
  split at isReceiver
  · obtain rfl := Option.some.inj isReceiver
    decide
  · obtain ⟨found, isFound, rfl⟩ := Option.map_eq_some_iff.1 isReceiver
    exact (legible.declared.lookup? isFound).2

theorem calleeClass (legible : generator.Legible) {call : Call} (named : call.Legible) :
    Jack.Legible (generator.calleeClass call) := by
  unfold Generator.calleeClass
  split
  · exact legible.className
  · split
    · rename_i found isFound
      exact (legible.declared.lookup? isFound).1
    · exact named.qualifier _ ‹_›

theorem perform (limit : Nat) (legible : generator.Legible) (own : action.Legible generator) :
    LegibleOutcome (generator.perform limit action) := by
  have becomes {later : Generator} (events : List Event)
      (noted : ∀ event ∈ events, event.WellFormed) (legible : later.Legible) :
      LegibleOutcome (events, .ok later) :=
    ⟨noted, fun _ same => Except.ok.inj same ▸ legible⟩
  cases action with
  | nameClass name => exact becomes [] (List.forall_mem_nil _) { legible with className := own }
  | declare kind type name => exact legible.declare kind own name.lexeme name.line
  | closeVariables =>
    exact becomes _ (List.forall_mem_singleton.2 fun _ none => absurd none (Option.not_mem_none _))
      { legible with fields := legible.counted .field }
  | beginSubroutine kind name => exact legible.beginSubroutine kind own
  | beginBody => exact legible.beginBody
  | emit instruction => exact legible.emit (List.forall_mem_singleton.2 own)
  | mark point | jump point | jumpIf point =>
    exact legible.emit (List.forall_mem_singleton.2 (legible.name.label point))
  | resolve name => exact legible.withVariable name fun _ _ => List.forall_mem_nil _
  | load name | store name =>
    exact legible.withVariable name fun found small => List.forall_mem_singleton.2 small
  | integer constant =>
    rw [perform_integer]
    repeat' split
    · rename_i value _ small
      refine legible.emit (List.forall_mem_singleton.2 ?_)
      exact Nat.lt_of_le_of_lt small (by decide)
    all_goals exact refuse _
  | string constant => exact legible.string constant
  | nest line =>
    rw [Generator.perform]
    split
    · exact refuse _
    · exact becomes [] (List.forall_mem_nil _) { legible with }
  | unnest => exact becomes [] (List.forall_mem_nil _) { legible with }
  | receiver call => exact legible.receiver call
  | argument call count =>
    rw [Generator.perform]
    split
    · exact refuse _
    · exact legible.emit (List.forall_mem_nil _)
  | call call count =>
    obtain ⟨named, small⟩ := own
    refine legible.emit (List.forall_mem_singleton.2 ⟨?_, Nat.lt_succ_of_le small⟩)
    exact (legible.calleeClass named).qualified named.callee

end Legible

end Generator

/-- Actions that may be carried out one after the other: each of them anywhere, or there is only one
of them. -/
def Action.AllLegible (generator : Generator) (actions : List Action) : Prop :=
  (∀ generator : Generator, ∀ action ∈ actions, action.Legible generator) ∨
    ∃ action, actions = [action] ∧ action.Legible generator

theorem Generator.Legible.performAll {generator : Generator} {actions : List Action} (limit : Nat)
    (legible : generator.Legible) (all : Action.AllLegible generator actions) :
    Generator.LegibleOutcome (generator.performAll limit actions) := by
  rcases all with anywhere | ⟨action, rfl, own⟩
  · induction actions generalizing generator with
    | nil => exact ⟨List.forall_mem_nil _, fun later same => Except.ok.inj same ▸ legible⟩
    | cons action actions ih =>
      have first := legible.perform limit (anywhere generator action List.mem_cons_self)
      rw [performAll_cons]
      rcases performed : generator.perform limit action with ⟨events, refused | later⟩
      · rw [performed] at first
        exact ⟨first.events, fun _ none => by cases none⟩
      · rw [performed] at first
        have rest := ih (first.later later rfl) fun generator other member =>
          anywhere generator other (List.mem_cons_of_mem action member)
        exact ⟨List.forall_mem_append.2 ⟨first.events, rest.events⟩, rest.later⟩
  · have first := legible.perform limit own
    rw [performAll_cons]
    rcases performed : generator.perform limit action with ⟨events, refused | later⟩
    · rw [performed] at first
      exact ⟨first.events, fun _ none => by cases none⟩
    · rw [performed] at first
      refine ⟨List.forall_mem_append.2 ⟨first.events, List.forall_mem_nil _⟩, fun last same => ?_⟩
      exact first.later last same

namespace Goal

/-- What a goal carries may stand in an instruction. -/
def Legible : Goal → Prop
  | .perform actions =>
    ∀ generator : Generator, ∀ action ∈ actions, action.Legible generator
  | .variable _ type | .moreVariables _ type | .parameterName type => Jack.Legible type
  | .nameTail name | .callTail name | .calleeName name => Jack.Legible name.lexeme
  | .openCall target | .arguments target | .moreArguments target _ => target.Legible
  | _ => True

/-- Before more arguments may follow, those that a call has are counted. -/
def Announces (goal next : Goal) : Prop :=
  ∀ target count, next = .moreArguments target count → goal = .perform [.argument target count]

structure Step.Legible (step : Step) (generator : Generator) : Prop where
  actions : Action.AllLegible generator step.actions
  goals : ∀ goal ∈ step.goals, goal.Legible
  announced : step.goals.IsChain Announces
  first : ∀ target count, step.goals.head? ≠ some (.moreArguments target count)

variable {goal : Goal} {token name : Token} {numbering : Numbering} {step : Step}
  {generator : Generator}

theorem legible_takeStatement? (took : takeStatement? numbering token = some step) :
    step.Legible generator := by
  unfold takeStatement? at took
  split at took <;> cases took
  all_goals
    refine ⟨.inl ?_, ?_, ?_, ?_⟩ <;>
      simp [ifStatement, whileStatement, condition, expression, block, symbol, Legible, Announces,
        Action.Legible, Instruction.WellFormed]

theorem legible_takeCall? (isName : Jack.Legible name.lexeme)
    (took : takeCall? token name = some step) : step.Legible generator := by
  unfold takeCall? at took
  split at took <;> cases took
  · refine ⟨.inl (by simp [Action.Legible]), ?_, by simp, by simp⟩
    exact List.forall_mem_singleton.2
      ⟨isName, fun other none => absurd none (Option.not_mem_none _)⟩
  · exact ⟨.inl (by simp), List.forall_mem_singleton.2 isName, by simp, by simp⟩

theorem legible_takeTerm? (legible : token.Legible) (took : takeTerm? token = some step) :
    step.Legible generator := by
  unfold takeTerm? at took
  split at took <;> rename_i is <;> cases took
  case h_7 =>
    have isName : Jack.Legible token.lexeme := legible (by rw [is]; decide)
    exact ⟨.inl (by simp), List.forall_mem_singleton.2 isName, by simp, by simp⟩
  all_goals
    refine ⟨.inl ?_, ?_, ?_, ?_⟩ <;>
      simp [expression, operand, symbol, Legible, Announces, Action.Legible,
        Instruction.WellFormed]

theorem wellFormed_binaryInstruction? {mark : Symbol} {instruction : Instruction}
    (found : mark.binaryInstruction? = some instruction) : instruction.WellFormed := by
  cases mark <;> cases found <;> decide

theorem legible_take? (own : goal.Legible) (legible : token.Legible)
    (counted : ∀ target count, goal = .moreArguments target count →
      generator.argumentCount target count ≤ 65535)
    (took : goal.take? numbering token = some step) : step.Legible generator := by
  have isName (is : token.kind = .identifier) : Jack.Legible token.lexeme :=
    legible (by rw [is]; decide)
  -- A goal that leaves one other behind which carries a text of its own or that of the token.
  have one {actions : List Action} {next : Goal} (only : ∀ target count,
      next ≠ .moreArguments target count) (carries : next.Legible)
      (asks : ∀ generator : Generator, ∀ action ∈ actions, action.Legible generator) :
      Step.Legible ⟨actions, [next]⟩ generator :=
    ⟨.inl asks, List.forall_mem_singleton.2 carries, .singleton _,
      fun target count same => only target count (Option.some.inj same)⟩
  cases goal <;> simp only [take?] at took
  case statements => exact legible_takeStatement? took
  case term => exact legible_takeTerm? legible took
  case callTail name => exact legible_takeCall? own took
  case nameTail name =>
    split at took
    · cases took
      refine ⟨.inl ?_, ?_, ?_, ?_⟩ <;>
        simp [element, expression, symbol, Legible, Announces, Action.Legible,
          Instruction.WellFormed]
    · exact legible_takeCall? own took
  case operators =>
    split at took
    · obtain ⟨instruction, found, rfl⟩ := Option.map_eq_some_iff.1 took
      have wellFormed := wellFormed_binaryInstruction? found
      refine ⟨.inl ?_, ?_, ?_, ?_⟩ <;>
        simp [operand, Legible, Announces, Action.Legible, wellFormed]
    · cases took
  case className =>
    obtain ⟨is, rfl⟩ := eq_of_takeIf took
    exact ⟨.inr ⟨_, rfl, isName is⟩, by simp, by simp, by simp⟩
  case declaration | parameterType =>
    obtain ⟨is, rfl⟩ := eq_of_takeIf took
    exact one (by simp) (legible is) (by simp)
  case «variable» | parameterName =>
    obtain ⟨is, rfl⟩ := eq_of_takeIf took
    exact one (by simp) (by first | exact own | trivial) fun _ => List.forall_mem_singleton.2 own
  case moreVariables kind type =>
    split at took <;> cases took
    · exact one (by simp) own (by simp)
    · exact ⟨.inl (by simp), by simp, by simp, by simp⟩
  case parameters =>
    split at took
    · cases took
      exact ⟨.inl (by simp), by simp, by simp, by simp⟩
    · obtain ⟨is, rfl⟩ := eq_of_takeIf took
      exact one (by simp) (legible is) (by simp)
  case subroutineName kind =>
    obtain ⟨is, rfl⟩ := eq_of_takeIf took
    refine ⟨.inl fun _ => List.forall_mem_singleton.2 (isName is), ?_, ?_, ?_⟩ <;>
      simp [Legible, Announces, symbol]
  case doCall =>
    obtain ⟨is, rfl⟩ := eq_of_takeIf took
    exact one (by simp) (isName is) (by simp)
  case calleeName qualifier =>
    obtain ⟨is, rfl⟩ := eq_of_takeIf took
    exact one (by simp) ⟨isName is, fun other same => Option.some.inj same ▸ own⟩ (by simp)
  case openCall target =>
    obtain ⟨is, rfl⟩ := eq_of_takeIf took
    exact one (by simp) own (by simp [Action.Legible])
  case arguments target =>
    obtain ⟨is, rfl⟩ := eq_of_takeIf took
    have small : generator.argumentCount target 0 ≤ 65535 := by
      unfold Generator.argumentCount
      split <;> decide
    exact ⟨.inr ⟨_, rfl, own, small⟩, by simp, by simp, by simp⟩
  case moreArguments target count =>
    split at took <;> cases took
    · refine ⟨.inl ?_, ?_, ?_, ?_⟩ <;>
        simp [expression, Legible, Announces, Action.Legible]
      exact own
    · exact ⟨.inr ⟨_, rfl, own, counted target count rfl⟩, by simp, by simp, by simp⟩
  all_goals
    repeat' split at took
  all_goals
    cases took
  all_goals
    refine ⟨.inl ?_, ?_, ?_, ?_⟩ <;>
      simp [elementAssignment, expression, block, symbol, Legible, Announces, Action.Legible,
        Instruction.WellFormed]

theorem legible_otherwise {line : Nat} (own : goal.Legible)
    (moves : goal.otherwise line = .ok step) : step.Legible generator := by
  cases goal <;> simp only [otherwise, Except.ok.injEq, reduceCtorEq] at moves <;> subst moves
  case perform actions => exact ⟨.inl own, by simp, by simp, by simp⟩
  case arguments target =>
    refine ⟨.inl ?_, ?_, ?_, ?_⟩ <;>
      simp [expression, Legible, Announces, Action.Legible]
    exact own
  all_goals
    refine ⟨.inl ?_, ?_, ?_, ?_⟩ <;>
      simp [expression, symbol, Legible, Announces, Action.Legible, Instruction.WellFormed]

end Goal

/-- What is left and what is known in the middle of a class may stand in instructions. -/
structure Recognizer.Legible (here : Recognizer) (generator : Generator) : Prop where
  tokens : ∀ token ∈ here.stream.rest, token.Legible
  goals : ∀ goal ∈ here.goals, goal.Legible
  announced : here.goals.IsChain Goal.Announces
  counted : ∀ target count, here.goals.head? = some (.moreArguments target count) →
    generator.argumentCount target count ≤ 65535
  known : generator.Legible

namespace Recognizer.Legible

variable {limit : Nat} {here next last : Recognizer} {goal : Goal} {goals : List Goal}
  {stream : TokenStream} {numbering : Numbering} {generator later : Generator}
  {actions : List Action}

/-- More arguments follow behind a count only. -/
theorem quiet (legible : Legible ⟨goal :: goals, stream, numbering⟩ generator)
    (other : ∀ actions, goal ≠ .perform actions) (target : Call) (count : Nat) :
    goals.head? ≠ some (.moreArguments target count) := by
  intro isNext
  obtain ⟨next, goals, rfl, rfl⟩ : ∃ next more, next = .moreArguments target count ∧
      goals = next :: more := by
    obtain ⟨more, rfl⟩ := List.head?_eq_some_iff.1 isNext
    exact ⟨_, more, rfl, rfl⟩
  exact other _ ((List.isChain_cons_cons.1 legible.announced).1 target count rfl)

theorem onward {step : Goal.Step} {ahead : TokenStream} {numbers : Numbering}
    (legible : Legible ⟨goal :: goals, stream, numbering⟩ generator)
    (own : step.Legible generator) (other : ∀ actions, goal ≠ .perform actions)
    (tokens : ∀ token ∈ ahead.rest, token.Legible) (known : later.Legible) :
    Legible ⟨step.goals ++ goals, ahead, numbers⟩ later where
  tokens := tokens
  goals := List.forall_mem_append.2 ⟨own.goals, (List.forall_mem_cons.1 legible.goals).2⟩
  announced := by
    refine List.isChain_append.2 ⟨own.announced, legible.announced.tail, ?_⟩
    rintro first - next isNext target count rfl
    exact absurd isNext (legible.quiet other target count)
  counted target count isFirst := by
    cases added : step.goals with
    | nil =>
      rw [added] at isFirst
      exact absurd isFirst (legible.quiet other target count)
    | cons first more =>
      rw [added] at isFirst
      exact absurd (congrArg List.head? added |>.trans isFirst) (own.first target count)
  known := known

theorem step (limit : Nat) (legible : here.Legible generator)
    (moved : here.step = .ok (actions, next)) :
    (∀ event ∈ (generator.performAll limit actions).1, event.WellFormed) ∧
      ∀ later, (generator.performAll limit actions).2 = .ok later → next.Legible later := by
  obtain ⟨goal, goals, taken, rest, numbering, step, rfl, moves⟩ := step_cases moved
  obtain ⟨token, rfl, took, rfl⟩ | ⟨line, rfl, -, moves, rfl⟩ := moves
  · obtain ⟨first, others⟩ := List.forall_mem_cons.1 legible.tokens
    have own := Goal.legible_take? (List.forall_mem_cons.1 legible.goals).1 first
      (fun target count same => legible.counted target count (congrArg some same)) took
    have performed := legible.known.performAll limit own.actions
    refine ⟨performed.events, fun later done => ?_⟩
    refine legible.onward own ?_ others (performed.later later done)
    rintro actions rfl
    cases took
  · have own : step.Legible generator :=
      Goal.legible_otherwise (List.forall_mem_cons.1 legible.goals).1 moves
    have performed := legible.known.performAll limit own.actions
    refine ⟨performed.events, fun later done => ?_⟩
    by_cases isPerform : ∃ actions, goal = .perform actions
    · obtain ⟨actions, rfl⟩ := isPerform
      cases moves
      refine ⟨legible.tokens, (List.forall_mem_cons.1 legible.goals).2, legible.announced.tail,
        fun target count isNext => ?_, performed.later later done⟩
      obtain ⟨more, rfl⟩ := List.head?_eq_some_iff.1 isNext
      cases (List.isChain_cons_cons.1 legible.announced).1 target count rfl
      -- The count was not refused, so it is small enough.
      rw [Generator.result_singleton, Generator.perform] at done
      split at done
      · cases done
      · rename_i small
        obtain rfl := Except.ok.inj done
        exact Nat.le_of_not_lt small
    · exact legible.onward own (not_exists.1 isPerform) legible.tokens (performed.later later done)

/-- Along a run, however its actions end. -/
theorem reaches (limit : Nat) (legible : here.Legible generator)
    (reach : Reaches here actions last) :
    ∀ event ∈ (generator.performAll limit actions).1, event.WellFormed := by
  induction reach generalizing generator with
  | refl => exact List.forall_mem_nil _
  | @step here next last first rest moved _ ih =>
    obtain ⟨events, further⟩ := legible.step limit moved
    rw [Generator.performAll_append]
    rcases performed : generator.performAll limit first with ⟨emitted, refused | later⟩
    · rw [performed] at events
      exact events
    · rw [performed] at events further
      exact List.forall_mem_append.2 ⟨events, ih (further later rfl)⟩

end Recognizer.Legible

/-- However compiling a class ends, its events are those of the actions that were asked for. -/
theorem ClassCode.events_ofTokens (limit : Nat) (tokens : List Token) :
    (ofTokens limit tokens).events =
      (Generator.start.performAll limit (Recognizer.ofTokens tokens).run.1).1 := by
  rw [ofTokens]
  rcases (Recognizer.ofTokens tokens).run with ⟨actions, _ | error⟩ <;>
    rcases performed : Generator.start.performAll limit actions with ⟨events, _ | later⟩ <;>
    simp only [performed]

/-- Every instruction that comes of words that may stand in one is well formed. -/
theorem ClassCode.wellFormed {limit : Nat} {tokens : List Token}
    (legible : ∀ token ∈ tokens, token.Legible) :
    ∀ instruction ∈ (ofTokens limit tokens).instructions, instruction.WellFormed := by
  obtain ⟨last, reach, -⟩ := Recognizer.reaches_stop (Recognizer.ofTokens tokens)
  have begun : (Recognizer.ofTokens tokens).Legible .start := by
    refine ⟨legible, ?_, ?_, ?_, .start⟩ <;>
      simp [Recognizer.ofTokens, Goal.wholeClass, Goal.Legible, Goal.Announces, Goal.keyword,
        Goal.symbol]
  have emitted := begun.reaches limit reach
  rw [← events_ofTokens] at emitted
  intro instruction member
  obtain ⟨event, isEvent, isInstruction⟩ := List.mem_filterMap.1 member
  exact emitted event isEvent instruction isInstruction

theorem ClassCode.wellFormed_ofSource (limit : Nat) (source : String) :
    ∀ instruction ∈ (ofSource limit source).instructions, instruction.WellFormed :=
  wellFormed (Finding.legible_ofSource source)

theorem ClassCode.textLines_ofSource (limit : Nat) (source : String) :
    textLines (ofSource limit source).text =
      (ofSource limit source).instructions.map Instruction.text :=
  Instruction.textLines_lines (wellFormed_ofSource limit source)

end Jack
