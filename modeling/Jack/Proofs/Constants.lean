import Jack.Proofs.Output

namespace Jack

/-- Whether an instruction pushes no constant past the largest one. -/
def Instruction.isSmall : Instruction → Bool
  | .push .constant n => n ≤ maxConstant
  | _ => true

/-- Whether an action that gives its instruction itself gives a small one. -/
def Action.isSmall : Action → Bool
  | .emit instruction => instruction.isSmall
  | _ => true

namespace Goal

/-- Whether a goal that gives its actions itself gives small ones. -/
def isSmall : Goal → Bool
  | .perform actions => actions.all Action.isSmall
  | _ => true

def Step.isSmall (step : Step) : Bool :=
  step.actions.all Action.isSmall && step.goals.all Goal.isSmall

variable {goal : Goal} {token name : Token} {numbering : Numbering} {step : Step}

theorem isSmall_binaryInstruction? {mark : Symbol} {instruction : Instruction}
    (found : mark.binaryInstruction? = some instruction) : instruction.isSmall := by
  cases mark <;> cases found <;> rfl

theorem isSmall_takeCall? (took : takeCall? token name = some step) : step.isSmall := by
  unfold takeCall? at took
  split at took <;> cases took <;> rfl

theorem isSmall_takeStatement? (took : takeStatement? numbering token = some step) :
    step.isSmall := by
  unfold takeStatement? at took
  split at took <;> cases took <;> rfl

theorem isSmall_takeTerm? (took : takeTerm? token = some step) : step.isSmall := by
  unfold takeTerm? at took
  split at took <;> cases took <;> rfl

theorem isSmall_take? (took : goal.take? numbering token = some step) : step.isSmall := by
  cases goal with
  | statements => exact isSmall_takeStatement? took
  | term => exact isSmall_takeTerm? took
  | callTail name => exact isSmall_takeCall? took
  | nameTail name =>
    simp only [take?] at took
    split at took
    · cases took
      rfl
    · exact isSmall_takeCall? took
  | operators =>
    simp only [take?] at took
    split at took
    · obtain ⟨instruction, found, rfl⟩ := Option.map_eq_some_iff.1 took
      simp [Step.isSmall, isSmall, operand, Action.isSmall, isSmall_binaryInstruction? found]
    · cases took
  | _ =>
    simp only [take?] at took
    repeat' split at took
    all_goals
      cases took
    all_goals
      rfl

theorem isSmall_otherwise {line : Nat} (small : goal.isSmall)
    (moved : goal.otherwise line = .ok step) : step.isSmall := by
  cases goal with
  | perform actions =>
    cases moved
    simpa [Step.isSmall, isSmall] using small
  | _ => cases moved <;> rfl

end Goal

namespace Recognizer

variable {here next last : Recognizer} {actions : List Action}

/-- A step asks for small actions and leaves goals that ask for no others. -/
theorem small_step (moved : here.step = .ok (actions, next))
    (small : here.goals.all Goal.isSmall) :
    actions.all Action.isSmall ∧ next.goals.all Goal.isSmall := by
  obtain ⟨goal, goals, taken, rest, numbering, step, rfl, moves⟩ := step_cases moved
  have done : step.isSmall → goals.all Goal.isSmall →
      step.actions.all Action.isSmall ∧ (step.goals ++ goals).all Goal.isSmall := by
    intro own others
    obtain ⟨actions, inner⟩ := Bool.and_eq_true_iff.1 own
    rw [List.all_append, inner, others]
    exact ⟨actions, rfl⟩
  obtain ⟨token, rfl, took, rfl⟩ | ⟨line, rfl, -, passed, rfl⟩ := moves
  · exact done (Goal.isSmall_take? took) (Bool.and_eq_true_iff.1 small).2
  · obtain ⟨own, others⟩ := Bool.and_eq_true_iff.1 small
    exact done (Goal.isSmall_otherwise own passed) others

theorem Reaches.small (reach : Reaches here actions last) (small : here.goals.all Goal.isSmall) :
    actions.all Action.isSmall := by
  induction reach with
  | refl => rfl
  | step moved _ ih =>
    obtain ⟨first, others⟩ := small_step moved small
    rw [List.all_append, first, ih others]
    rfl

/-- Whatever the tokens are, nothing but small actions is asked for. -/
theorem small_run (tokens : List Token) : (ofTokens tokens).run.1.all Action.isSmall := by
  obtain ⟨last, reach, -⟩ := reaches_stop (ofTokens tokens)
  exact reach.small rfl

end Recognizer

def Event.isSmall : Event → Bool
  | .instruction i => i.isSmall
  | _ => true

/-- The events in front of an instruction say that a constructor has just begun, of a class with
this number of fields. -/
def MakesRoom (before : List Event) (fields : Nat) : Prop :=
  ∃ front name function locals,
    before = front ++ [.subroutineOpened .constructor name locals,
      .instruction (.function function locals)] ∧
    ∃ className statics, .classOpened className fields statics ∈ front

/-- Each constant is small, or it is the number of fields that a constructor makes room for. -/
def Accounted (events : List Event) : Prop :=
  ∀ before n, before ++ [.instruction (.push .constant n)] <+: events →
    n ≤ maxConstant ∨ MakesRoom before n ∧ n ≤ 65535

namespace Accounted

variable {events more : List Event} {event : Event}

theorem nil : Accounted [] := by
  intro before n isPrefix
  have := List.prefix_nil.1 isPrefix
  simp at this

theorem concat (front : Accounted events)
    (next : ∀ n, event = .instruction (.push .constant n) →
      n ≤ maxConstant ∨ MakesRoom events n ∧ n ≤ 65535) : Accounted (events ++ [event]) := by
  intro before n isPrefix
  rcases List.prefix_concat_iff.1 isPrefix with whole | inside
  · obtain ⟨rfl, same⟩ := List.append_inj' whole rfl
    obtain ⟨isLast, -⟩ := List.cons.inj same
    exact next n isLast.symm
  · exact front before n inside

theorem append (front : Accounted events) (small : more.all Event.isSmall) :
    Accounted (events ++ more) := by
  induction more generalizing events with
  | nil => rwa [List.append_nil]
  | cons event more ih =>
    obtain ⟨own, others⟩ := Bool.and_eq_true_iff.1 small
    have first : Accounted (events ++ [event]) := by
      refine front.concat fun n isPush => .inl ?_
      subst isPush
      exact of_decide_eq_true own
    rw [List.append_cons]
    exact ih first others

end Accounted

/-- A declaration is refused where it is one too many. -/
theorem Scope.count_le_of_define {scope later : Scope} {name type : String} {kind : VarKind}
    (within : ∀ kind, scope.count kind ≤ 65535)
    (defined : scope.define name type kind = .ok later) (other : VarKind) :
    later.count other ≤ 65535 := by
  unfold define at defined
  repeat' split at defined
  all_goals cases defined
  rename_i room
  rw [maxPerKind] at room
  have before : scope.inner.counts.get other ≤ 65535 := within other
  show (scope.inner.counts.bump kind).get other ≤ 65535
  rw [VarCounts.get_bump]
  by_cases same : other = kind
  · subst same
    rw [if_pos rfl]
    exact Nat.lt_of_not_le room
  · rwa [if_neg same]

namespace Generator

variable {limit : Nat} {generator later : Generator} {action : Action} {emitted events : List Event}

/-- What is known of the fields of the class agrees with what was noted of them. Before the
variables are closed there are none. -/
structure Recalls (generator : Generator) (emitted : List Event) : Prop where
  noted : generator.fields = 0 ∨
    ∃ className statics, .classOpened className generator.fields statics ∈ emitted
  fields : generator.fields ≤ 65535
  declared : ∀ kind, generator.scope.count kind ≤ 65535

namespace Recalls

theorem start : start.Recalls [] where
  noted := .inl rfl
  fields := Nat.zero_le _
  declared kind := by cases kind <;> exact Nat.zero_le _

/-- Whatever is emitted, another scope with room for its variables does not matter. -/
theorem rescope (recalls : generator.Recalls emitted) (same : later.fields = generator.fields)
    (within : ∀ kind, later.scope.count kind ≤ 65535) : later.Recalls (emitted ++ events) where
  noted := by
    rw [same]
    exact recalls.noted.imp_right fun ⟨className, statics, member⟩ =>
      ⟨className, statics, List.mem_append_left _ member⟩
  fields := same ▸ recalls.fields
  declared := within

theorem append (recalls : generator.Recalls emitted) (events : List Event) :
    generator.Recalls (emitted ++ events) :=
  recalls.rescope rfl recalls.declared

theorem declare {kind : VarKind} {type name : String} {line : Nat}
    (recalls : generator.Recalls emitted)
    (done : generator.declare kind type name line = (events, .ok later)) :
    later.Recalls (emitted ++ events) := by
  unfold Generator.declare at done
  split at done
  · rename_i scope defined
    have within := Scope.count_le_of_define recalls.declared defined
    cases done
    exact recalls.rescope rfl within
  · cases done

theorem beginSubroutine {kind : SubroutineKind} {name : Token} (recalls : generator.Recalls emitted)
    (done : generator.beginSubroutine kind name = (events, .ok later)) :
    later.Recalls (emitted ++ events) := by
  have fresh : ∀ other, (if generator.scope.isSubroutine then generator.scope.reset
      else generator.scope.enter).count other ≤ 65535 := by
    intro other
    split <;> cases other <;> exact Nat.zero_le _
  cases kind with
  | method =>
    refine declare ?_ done
    rw [← List.append_nil emitted]
    exact recalls.rescope rfl fresh
  | constructor | function =>
    cases done
    exact recalls.rescope rfl fresh

/-- Only the end of the variables of the class gives another number of fields, and notes it. -/
theorem perform (recalls : generator.Recalls emitted)
    (done : generator.perform limit action = (events, .ok later)) :
    later.Recalls (emitted ++ events) := by
  cases action with
  | declare kind type name => exact recalls.declare done
  | beginSubroutine kind name => exact recalls.beginSubroutine done
  | closeVariables =>
    cases done
    exact ⟨.inr ⟨_, _, List.mem_append_right _ (List.mem_singleton_self _)⟩,
      recalls.declared .field, recalls.declared⟩
  | nameClass name =>
    cases done
    exact recalls.rescope rfl recalls.declared
  | nest line =>
    simp only [Generator.perform] at done
    split at done <;> cases done
    exact recalls.rescope rfl recalls.declared
  | unnest =>
    cases done
    exact recalls.rescope rfl recalls.declared
  | resolve | load | store =>
    simp only [Generator.perform, withVariable] at done
    split at done <;> cases done
    exact recalls.append _
  | integer constant =>
    simp only [Generator.perform] at done
    repeat' split at done
    all_goals cases done
    exact recalls.append _
  | string constant =>
    simp only [Generator.perform, string] at done
    repeat' split at done
    all_goals cases done
    all_goals exact recalls.append _
  | argument call count =>
    simp only [Generator.perform] at done
    split at done <;> cases done
    exact recalls.append _
  | _ =>
    cases done
    exact recalls.append _

end Recalls

/-- Whatever stands for a variable, it is not a constant that is pushed for it. -/
theorem isSmall_push (kind : VarKind) (index : Nat) :
    (Instruction.push kind.segment index).isSmall := by
  cases kind <;> rfl

theorem small_chars (text : List Char) :
    ((text.takeWhile fitsConstant).flatMap appendChar).all Instruction.isSmall := by
  rw [List.all_flatMap, List.all_eq_true]
  intro c member
  have fits : fitsConstant c := List.mem_takeWhile_imp member
  exact (Bool.and_true _).trans fits

/-- A string is made from small constants alone, even if a character of it is none. -/
theorem small_string (generator : Generator) (constant : Token) :
    (generator.string constant).1.all Event.isSmall := by
  have made (text : List Char) (fits : ¬maxConstant < text.length) :
      (([Instruction.push .constant text.length, .call "String.new" 1] ++
        (text.takeWhile fitsConstant).flatMap appendChar).map Event.instruction).all
          Event.isSmall := by
    have length : (Instruction.push .constant text.length).isSmall :=
      decide_eq_true (Nat.le_of_not_lt fits)
    rw [List.all_map, List.all_append]
    exact Bool.and_eq_true_iff.2 ⟨(Bool.and_true _).trans length, small_chars text⟩
  unfold string
  dsimp only
  split
  all_goals
    split
    · rfl
    · exact made _ ‹_›

/-- Every action but the beginning of a body emits small constants. -/
theorem small_perform (limit : Nat) (generator : Generator) (small : action.isSmall)
    (other : action ≠ .beginBody) :
    (generator.perform limit action).1.all Event.isSmall := by
  cases action with
  | beginBody => exact absurd rfl other
  | emit instruction => exact (Bool.and_true _).trans small
  | declare =>
    simp only [perform, declare]
    split <;> rfl
  | beginSubroutine =>
    simp only [perform, beginSubroutine, declare]
    repeat' split
    all_goals rfl
  | resolve =>
    simp only [perform, withVariable]
    split <;> rfl
  | load =>
    simp only [perform, withVariable]
    split
    · exact (Bool.and_true _).trans (isSmall_push _ _)
    · rfl
  | store =>
    simp only [perform, withVariable]
    split <;> rfl
  | integer constant =>
    simp only [perform]
    repeat' split
    · rename_i fits
      exact (Bool.and_true _).trans (decide_eq_true fits)
    all_goals rfl
  | string constant => exact generator.small_string constant
  | nest | argument =>
    simp only [perform]
    split <;> rfl
  | receiver call =>
    simp only [perform, receiver?]
    split
    · rfl
    · cases generator.scope.lookup? _ with
      | none => rfl
      | some found => exact (Bool.and_true _).trans (isSmall_push _ _)
  | _ => rfl

theorem accounted_beginBody (recalls : generator.Recalls emitted) (accounted : Accounted emitted) :
    Accounted (emitted ++ generator.beginBody.1) := by
  have opening (name function : String) (locals : Nat) :
      Accounted (emitted ++ [.subroutineOpened generator.kind name locals,
        .instruction (.function function locals)]) :=
    accounted.append rfl
  simp only [beginBody]
  rw [List.map_cons, List.append_cons, List.append_cons, List.append_assoc emitted]
  cases isKind : generator.kind with
  | method => exact (isKind ▸ opening _ _ _).append rfl
  | function => exact (isKind ▸ opening _ _ _).append rfl
  | constructor =>
    rw [prologue, List.map_cons, List.append_cons]
    refine ((isKind ▸ opening _ _ _).concat fun n isPush => ?_).append rfl
    cases isPush
    -- Before the variables are closed the number is zero, which is small.
    rcases recalls.noted with isZero | ⟨className, statics, noted⟩
    · exact .inl (isZero ▸ Nat.zero_le _)
    · exact .inr ⟨⟨emitted, _, _, _, rfl, className, statics, noted⟩, recalls.fields⟩

theorem accounted_perform (limit : Nat) (recalls : generator.Recalls emitted)
    (accounted : Accounted emitted) (small : action.isSmall) :
    Accounted (emitted ++ (generator.perform limit action).1) := by
  by_cases isBody : action = .beginBody
  · subst isBody
    exact accounted_beginBody recalls accounted
  · exact accounted.append (small_perform limit generator small isBody)

/-- Along all actions, however they end. What is emitted before them stays in sight, since a number
of fields is noted long before it is pushed. -/
theorem accounted_performAll (limit : Nat) {actions : List Action}
    (recalls : generator.Recalls emitted) (accounted : Accounted emitted)
    (small : actions.all Action.isSmall) :
    Accounted (emitted ++ (generator.performAll limit actions).1) := by
  induction actions generalizing generator emitted with
  | nil =>
    rw [performAll, performOnto]
    simpa using accounted
  | cons action actions ih =>
    obtain ⟨own, others⟩ := Bool.and_eq_true_iff.1 small
    have first := accounted_perform limit recalls accounted own
    rw [performAll_cons]
    rcases done : generator.perform limit action with ⟨events, refused | later⟩
    · rwa [done] at first
    · rw [done] at first
      rw [← List.append_assoc]
      exact ih (recalls.perform done) first others

end Generator

/-- However compiling a class ends, each constant is accounted for. -/
theorem ClassCode.accounted (limit : Nat) (tokens : List Token) :
    Accounted (ofTokens limit tokens).events := by
  have small := Recognizer.small_run tokens
  have performed := Generator.accounted_performAll limit Generator.Recalls.start .nil small
  rw [List.nil_append] at performed
  simp only [ofTokens]
  split
  · rename_i done _
    rwa [done] at performed
  · rename_i done _
    rwa [done] at performed
  · rename_i done
    rwa [done] at performed

/-- With few enough fields every constant is small. -/
theorem Accounted.le_maxConstant {code : ClassCode} (accounted : Accounted code.events)
    (few : ∀ className fields statics, .classOpened className fields statics ∈ code.events →
      fields ≤ maxConstant) {n : Nat} (member : .push .constant n ∈ code.instructions) :
    n ≤ maxConstant := by
  obtain ⟨event, isEvent, isPush⟩ := List.mem_filterMap.1 member
  obtain ⟨before, behind, whole⟩ := List.append_of_mem isEvent
  have isInstruction : event = .instruction (.push .constant n) := by
    cases event <;> cases isPush
    rfl
  subst isInstruction
  have isPrefix : before ++ [.instruction (.push .constant n)] <+: code.events :=
    ⟨behind, by rw [whole, List.append_assoc]; rfl⟩
  rcases accounted before n isPrefix with small | ⟨makesRoom, -⟩
  · exact small
  · obtain ⟨front, _, _, _, isFront, className, statics, noted⟩ := makesRoom
    refine few className n statics ?_
    rw [whole, isFront]
    exact List.mem_append_left _ (List.mem_append_left _ noted)

/-- Whether a source text is compiled or not, the constants that come into the sink are accounted
for, and those of a class without too many fields are small. -/
theorem Compilation.ofSource_constants (limit : Nat) (source : String) (sink : Sink) :
    (ofSource limit source sink).sink.Holds sink.held
        (ClassCode.ofSource limit source).instructions ∧
      Accounted (ClassCode.ofSource limit source).events ∧
      ((∀ className fields statics,
          .classOpened className fields statics ∈ (ClassCode.ofSource limit source).events →
          fields ≤ maxConstant) →
        ∀ n, .push .constant n ∈ (ClassCode.ofSource limit source).instructions →
          n ≤ maxConstant) := by
  have accounted := ClassCode.accounted limit (Finding.tokens (Finding.ofSource source))
  exact ⟨holds_ofSource limit source sink, accounted, fun few _ member =>
    accounted.le_maxConstant few member⟩

/-- A class with one field and some others, and with a constructor. -/
def ClassTree.crowd (others : Nat) : ClassTree where
  name := "Crowd"
  classVariables :=
    [{ kind := .field
       names := ⟨.int, "f" ++ (0).repr, (List.range' 1 others).map fun i => "f" ++ i.repr⟩ }]
  subroutines :=
    [{ kind := .constructor
       result := some (.named "Crowd")
       name := "new"
       parameters := []
       locals := []
       body := .more (.returnValue (.mk (.constant .this) .done)) .done }]

namespace ClassTree

theorem declarations_crowd (others : Nat) : (crowd others).declarations =
    (List.range' 0 (others + 1)).map fun i => ⟨.field, "int", "f" ++ i.repr⟩ := by
  simp [declarations, crowd, Names.declarations, Names.all, List.range'_succ, TypeName.text,
    ClassKind.varKind]

theorem count_crowd (kind : VarKind) (others : Nat) :
    Declaration.count kind (crowd others).declarations =
      if kind = .field then others + 1 else 0 := by
  rw [declarations_crowd, Declaration.count, List.countP_map]
  cases kind <;> simp [Function.comp_def]

theorem valid_crowd {others : Nat} (room : others < 65535) : (crowd others).Valid where
  accepted := by
    constructor
    · rw [declarations_crowd, List.map_map]
      refine List.Pairwise.map _ (fun i j other same => other ?_) List.nodup_range'
      have texts := congrArg String.toList same
      rw [Function.comp_apply, Function.comp_apply, String.toList_append, String.toList_append,
        List.append_cancel_left_eq] at texts
      exact Nat.repr_injective (String.toList_injective texts)
    · intro kind
      rw [count_crowd]
      split <;> omega
  subroutines := by
    rw [crowd, List.forall_mem_singleton]
    refine ⟨⟨List.nodup_nil, fun kind => ?_⟩, ⟨⟨trivial, trivial⟩, trivial⟩⟩
    exact Nat.zero_le _

end ClassTree

/-- The number of fields is pushed as it is, whether it is small or not. -/
theorem ClassCode.ofTokens_crowd {others : Nat} (room : others < 65535) :
    ∃ generator,
      (ofTokens 1 ((ClassTree.crowd others).yield.map Terminal.token)).result = .ok generator ∧
      .push .constant (others + 1) ∈
        (ofTokens 1 ((ClassTree.crowd others).yield.map Terminal.token)).instructions := by
  obtain ⟨generator, ends, -, -, isCode⟩ := ClassTree.ofTokens_eq (ClassTree.valid_crowd room)
    (Nat.le_refl 1) (ClassTree.crowd others).speltBy_tokens
  refine ⟨generator, ends, ?_⟩
  have fields := ClassTree.count_crowd .field others
  rw [if_pos rfl] at fields
  rw [isCode, ← fields]
  exact .tail _ (.head _)

/-- A class may well have more fields than the largest constant. -/
theorem ClassCode.ofTokens_crowd_past :
    maxConstant < 32768 ∧ ∃ generator,
      (ofTokens 1 ((ClassTree.crowd 32767).yield.map Terminal.token)).result = .ok generator ∧
      .push .constant 32768 ∈
        (ofTokens 1 ((ClassTree.crowd 32767).yield.map Terminal.token)).instructions :=
  ⟨by decide, ofTokens_crowd (by decide)⟩

end Jack
