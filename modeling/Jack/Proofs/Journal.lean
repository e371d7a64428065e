import Jack.Proofs.Diagnosis
import Jack.Proofs.Legible

namespace Jack

/-- A subroutine as it is told: what it begins with, and the instructions behind its function as far
as they come. -/
structure Chapter where
  kind : SubroutineKind
  name : String
  locals : Nat
  code : List Instruction
  plain : ∀ instruction ∈ code, instruction.function? = none

namespace Chapter

def events (className : String) (chapter : Chapter) : List Event :=
  .subroutineOpened chapter.kind s!"{className}.{chapter.name}" chapter.locals ::
    (.function s!"{className}.{chapter.name}" chapter.locals :: chapter.code).map .instruction

/-- Everything that is told in a class of this name. -/
def story (className : String) (chapters : List Chapter) : List Event :=
  chapters.flatMap (events className)

variable {className : String} {chapters : List Chapter}

theorem story_concat (className : String) (chapters : List Chapter) (chapter : Chapter) :
    story className (chapters ++ [chapter]) =
      story className chapters ++ chapter.events className := by
  simp [story]

/-- More instructions belong to the last subroutine. -/
theorem exists_story_append (className : String) (begun : chapters ≠ []) {more : List Instruction}
    (plain : ∀ instruction ∈ more, instruction.function? = none) :
    ∃ longer, longer ≠ [] ∧
      story className chapters ++ more.map .instruction = story className longer := by
  obtain ⟨front, last, rfl⟩ : ∃ front last, chapters = front ++ [last] :=
    ⟨_, _, (List.dropLast_append_getLast begun).symm⟩
  refine ⟨front ++ [{ last with
    code := last.code ++ more
    plain := List.forall_mem_append.2 ⟨last.plain, plain⟩ }], by simp, ?_⟩
  simp [story_concat, events]

theorem exists_story_of_prefix_events {chapter : Chapter} {front : List Event}
    {instruction : Instruction}
    (isPrefix : front ++ [.instruction instruction] <+: chapter.events className) :
    ∃ fewer, front ++ [.instruction instruction] = story className [fewer] := by
  rcases List.prefix_cons_iff.1 isPrefix with none | ⟨front', isFront, inside⟩
  · simp at none
  obtain ⟨code, isPart, rfl⟩ := List.prefix_map_iff.1 inside
  rcases List.prefix_cons_iff.1 isPart with rfl | ⟨code, rfl, within⟩
  · -- Then the instruction would be the note on the subroutine.
    cases front with
    | nil => cases isFront
    | cons event front => simp at isFront
  · refine ⟨{ chapter with
      code
      plain := fun other member => chapter.plain other (within.subset member) }, ?_⟩
    rw [isFront, story, List.flatMap_singleton]
    rfl

/-- What is told up to an instruction is told of some subroutines too. -/
theorem exists_story_of_prefix {front : List Event} {instruction : Instruction}
    (isPrefix : front ++ [.instruction instruction] <+: story className chapters) :
    ∃ fewer, front ++ [.instruction instruction] = story className fewer := by
  induction chapters generalizing front with
  | nil =>
    have none := List.prefix_nil.1 isPrefix
    simp at none
  | cons chapter chapters ih =>
    obtain ⟨behind, whole⟩ := isPrefix
    rw [story, List.flatMap_cons, List.append_eq_append_iff] at whole
    obtain ⟨more, isChapter, -⟩ | ⟨more, isFront, isRest⟩ := whole
    · obtain ⟨fewer, told⟩ := exists_story_of_prefix_events ⟨more, isChapter.symm⟩
      exact ⟨[fewer], told⟩
    · rcases List.eq_nil_or_concat more with rfl | ⟨later, last, rfl⟩
      · refine ⟨[chapter], ?_⟩
        rw [isFront, story, List.flatMap_singleton, List.append_nil]
      · rw [List.concat_eq_append] at isFront isRest
        rw [← List.append_assoc] at isFront
        obtain ⟨rfl, same⟩ := List.append_inj' isFront rfl
        obtain rfl := (List.cons.inj same).1
        obtain ⟨fewer, told⟩ := ih ⟨behind, isRest.symm⟩
        refine ⟨chapter :: fewer, ?_⟩
        rw [story, List.flatMap_cons, List.append_assoc, told]
        rfl

end Chapter

/-- Whether an event is an instruction that begins no function. -/
def Event.isPlain : Event → Bool
  | .instruction i => i.function?.isNone
  | _ => false

/-- Whether an action that gives its instruction itself begins no function with it. -/
def Action.isPlain : Action → Bool
  | .nameClass _ | .closeVariables | .beginBody => false
  | .emit i => i.function?.isNone
  | _ => true

/-- Whether an action emits nothing. -/
def Action.isSilent : Action → Bool
  | .nameClass _ | .declare .. | .beginSubroutine .. => true
  | _ => false

theorem Event.exists_of_isPlain {events : List Event} (plain : events.all isPlain = true) :
    ∃ code : List Instruction, events = code.map .instruction ∧
      ∀ instruction ∈ code, instruction.function? = none := by
  induction events with
  | nil => exact ⟨[], rfl, List.forall_mem_nil _⟩
  | cons event events ih =>
    obtain ⟨first, others⟩ := Bool.and_eq_true_iff.1 plain
    obtain ⟨code, rfl, isPlain⟩ := ih others
    cases event with
    | instruction i =>
      exact ⟨i :: code, rfl, List.forall_mem_cons.2 ⟨Option.isNone_iff_eq_none.1 first, isPlain⟩⟩
    | _ => cases first

namespace Generator

variable {limit : Nat} {generator later : Generator} {action : Action} {actions : List Action}

theorem events_of_isSilent (limit : Nat) (generator : Generator)
    (silent : action.isSilent = true) : (generator.perform limit action).1 = [] := by
  cases action with
  | nameClass => rfl
  | declare =>
    simp only [perform, declare]
    split <;> rfl
  | beginSubroutine =>
    simp only [perform, beginSubroutine, declare]
    repeat' split
    all_goals rfl
  | _ => cases silent

theorem events_performAll_of_isSilent (silent : actions.all Action.isSilent = true) :
    (generator.performAll limit actions).1 = [] := by
  induction actions generalizing generator with
  | nil => rfl
  | cons action actions ih =>
    obtain ⟨first, others⟩ := Bool.and_eq_true_iff.1 silent
    have none := generator.events_of_isSilent limit first
    rw [performAll_cons]
    rcases performed : generator.perform limit action with ⟨events, refused | later⟩ <;>
      rw [performed] at none <;> obtain rfl : events = [] := none
    · rfl
    · exact ih others

theorem plain_instructions {code : List Instruction}
    (plain : code.all (·.function?.isNone) = true) :
    (code.map Event.instruction).all Event.isPlain = true := by
  rw [List.all_map]
  exact plain

theorem plain_string (generator : Generator) (constant : Token) :
    (generator.string constant).1.all Event.isPlain = true := by
  rw [string_eq]
  split
  · rfl
  · refine plain_instructions ?_
    rw [List.all_append, List.all_flatMap]
    exact List.all_eq_true.2 fun _ _ => rfl

/-- Only the name of a class itself names it. -/
theorem className_perform (other : ∀ name, action ≠ .nameClass name)
    (done : (generator.perform limit action).2 = .ok later) :
    later.className = generator.className := by
  by_cases inner : action.isInner = true
  · exact (sameNames_perform inner done).className
  cases action with
  | nameClass name => exact absurd rfl (other name)
  | closeVariables | beginBody =>
    cases done
    rfl
  | declare | beginSubroutine =>
    simp only [perform, beginSubroutine, declare] at done
    repeat' split at done
    all_goals cases done
    all_goals rfl
  | _ => exact absurd rfl inner

theorem plain_perform (limit : Nat) (generator : Generator) (plain : action.isPlain = true) :
    (generator.perform limit action).1.all Event.isPlain = true := by
  cases action with
  | nameClass | closeVariables | beginBody => cases plain
  | emit instruction => exact (Bool.and_true _).trans plain
  | declare =>
    simp only [perform, declare]
    split <;> rfl
  | beginSubroutine =>
    simp only [perform, beginSubroutine, declare]
    repeat' split
    all_goals rfl
  | resolve | load | store =>
    simp only [perform, withVariable]
    split <;> rfl
  | integer =>
    simp only [perform]
    repeat' split
    all_goals rfl
  | string constant => exact generator.plain_string constant
  | nest | argument =>
    simp only [perform]
    split <;> rfl
  | receiver call =>
    simp only [perform, receiver?]
    split
    · rfl
    · cases generator.scope.lookup? _ <;> rfl
  | _ => rfl

theorem performAll_of_isPlain (limit : Nat) (generator : Generator)
    (plain : actions.all Action.isPlain = true) :
    (generator.performAll limit actions).1.all Event.isPlain = true ∧
      ∀ later, (generator.performAll limit actions).2 = .ok later →
        later.className = generator.className := by
  induction actions generalizing generator with
  | nil => exact ⟨rfl, fun later same => Except.ok.inj same ▸ rfl⟩
  | cons action actions ih =>
    obtain ⟨first, others⟩ := Bool.and_eq_true_iff.1 plain
    have events := plain_perform limit generator first
    rw [performAll_cons]
    rcases performed : generator.perform limit action with ⟨emitted, refused | later⟩ <;>
      rw [performed] at events
    · exact ⟨events, fun _ none => by cases none⟩
    · obtain ⟨more, same⟩ := ih later others
      have named : later.className = generator.className := by
        refine className_perform ?_ (congrArg Prod.snd performed)
        rintro name rfl
        cases first
      refine ⟨?_, fun last done => (same last done).trans named⟩
      rw [List.all_append, more]
      exact (Bool.and_true _).trans events

theorem plain_prologue (kind : SubroutineKind) (fields : Nat) :
    ∀ instruction ∈ prologue kind fields, instruction.function? = none := by
  cases kind <;> simp [prologue, Instruction.function?]

end Generator

namespace Goal

/-- Goals behind the variables of a class. Only the beginning of a body asks for a function. -/
def isMember : Goal → Bool
  | .className | .classVariables => false
  | .perform actions => actions.all Action.isPlain
  | _ => true

/-- Goals outside of statements. -/
def isOuter : Goal → Bool
  | .token _ | .className | .classVariables | .subroutines | .declaration _ | .variable ..
  | .moreVariables .. | .returnType _ | .subroutineName _ | .parameters | .parameterType
  | .parameterName _ | .moreParameters | .localVariables => true
  | _ => false

variable {goal : Goal} {token name : Token} {numbering : Numbering} {line : Nat} {step : Step}

theorem silent_take? (outer : goal.isOuter = true)
    (took : goal.take? numbering token = some step) :
    step.actions.all Action.isSilent = true := by
  cases goal <;> simp only [take?, reduceCtorEq] at took <;> try cases outer
  all_goals
    repeat' split at took
  all_goals
    simp only [Option.some.injEq, reduceCtorEq] at took
  all_goals
    subst took
    rfl

theorem member_takeCall? (took : takeCall? token name = some step) :
    step.actions.all Action.isPlain = true ∧ step.goals.all isMember = true := by
  unfold takeCall? at took
  split at took <;> simp only [Option.some.injEq, reduceCtorEq] at took <;> subst took <;>
    exact ⟨rfl, rfl⟩

theorem member_takeStatement? (took : takeStatement? numbering token = some step) :
    step.actions.all Action.isPlain = true ∧ step.goals.all isMember = true := by
  unfold takeStatement? at took
  split at took <;> simp only [Option.some.injEq, reduceCtorEq] at took <;> subst took <;>
    exact ⟨rfl, rfl⟩

theorem member_takeTerm? (took : takeTerm? token = some step) :
    step.actions.all Action.isPlain = true ∧ step.goals.all isMember = true := by
  unfold takeTerm? at took
  split at took <;> simp only [Option.some.injEq, reduceCtorEq] at took <;> subst took <;>
    exact ⟨rfl, rfl⟩

theorem member_take? (member : goal.isMember = true)
    (took : goal.take? numbering token = some step) :
    step.actions.all Action.isPlain = true ∧ step.goals.all isMember = true := by
  cases goal <;> simp only [take?, reduceCtorEq] at took
  case className | classVariables => cases member
  case statements => exact member_takeStatement? took
  case term => exact member_takeTerm? took
  case callTail => exact member_takeCall? took
  case nameTail =>
    split at took
    · obtain rfl := Option.some.inj took
      exact ⟨rfl, rfl⟩
    · exact member_takeCall? took
  case operators =>
    split at took
    · obtain ⟨instruction, isOperator, rfl⟩ := Option.map_eq_some_iff.1 took
      have plain : instruction.function?.isNone = true := by
        rename_i mark _
        cases mark <;> cases isOperator <;> rfl
      exact ⟨rfl, by simp [operand, isMember, Action.isPlain, plain]⟩
    · cases took
  all_goals
    repeat' split at took
  all_goals
    simp only [Option.some.injEq, reduceCtorEq] at took
  all_goals
    subst took
    exact ⟨rfl, rfl⟩

theorem member_otherwise (member : goal.isMember = true)
    (moves : goal.otherwise line = .ok step) :
    (step.actions.all Action.isPlain = true ∨ step.actions = [.beginBody]) ∧
      step.goals.all isMember = true := by
  cases goal <;> simp only [otherwise, Except.ok.injEq, reduceCtorEq] at moves <;> subst moves
  case classVariables => cases member
  case localVariables => exact ⟨.inr rfl, rfl⟩
  case perform => exact ⟨.inl member, rfl⟩
  all_goals exact ⟨.inl rfl, rfl⟩

end Goal

/-- Outside of statements no goal of a statement comes first. -/
theorem Outline.isOuter {goal : Goal} {goals : List Goal} {spelt : List Terminal}
    {generator : Generator} (outline : Outline (goal :: goals) spelt generator) :
    goal.isOuter = true := by
  cases outline with
  | classGroup _ naming | localGroup naming => cases naming <;> rfl
  | parameters _ _ _ listing => cases listing <;> rfl
  | _ => rfl

/-- The note on a class with these variables. -/
def ClassTree.opened (tree : ClassTree) : Event :=
  .classOpened tree.name (Declaration.count .field tree.declarations)
    (Declaration.count .statics tree.declarations)

/-- The tokens begin with a class that has these variables and no more of them. -/
structure Opens (tokens : List Token) (tree : ClassTree) : Prop where
  alone : tree.subroutines = []
  split : ∃ taken rest, tokens = taken ++ rest ∧ taken.map Token.terminal = tree.front ∧
    ∀ token ∈ rest.head?, token.kind ∉ [.keyword .kwStatic, .keyword .kwField]

/-- What is told of tokens, up to wherever it ends: nothing before the variables of the class are
known, and then of the class and of its subroutines. -/
def EventsInOrder (tokens : List Token) (events : List Event) : Prop :=
  events = [] ∨ ∃ tree chapters, Opens tokens tree ∧
    events = tree.opened :: Chapter.story tree.name chapters

/-- The recognizer and the generator stand among tokens, outside of statements. -/
structure Outlined (tokens : List Token) (here : Recognizer) (generator : Generator) : Prop where
  whole : tokens = here.stream.taken.reverse ++ here.stream.rest
  outline : Outline here.goals (here.stream.taken.reverse.map Token.terminal) generator

namespace Outlined

variable {limit : Nat} {tokens : List Token} {here next : Recognizer} {generator : Generator}
  {actions : List Action}

/-- Outside of statements nothing is told but where the variables of the class end and where a body
begins. -/
theorem step (scanned : ∀ token ∈ tokens, token.Scanned) (outlined : Outlined tokens here generator)
    (moved : here.step = .ok (actions, next)) :
    (actions.all Action.isSilent = true ∧
        (.classVariables ∈ here.goals → .classVariables ∈ next.goals) ∧
        ∀ later, (generator.performAll limit actions).2 = .ok later → Outlined tokens next later) ∨
      (∃ tree, actions = [.closeVariables] ∧ here.goals = .classVariables :: Goal.members ∧
        next.goals = Goal.members ∧ Opens tokens tree ∧
        generator.Holds tree.name tree.declarations [] ∧
        Outlined tokens next { generator with fields := generator.scope.count .field }) ∨
      actions = [.beginBody] ∧ .classVariables ∉ here.goals := by
  obtain ⟨_ | ⟨goal, goals⟩, ⟨taken, rest⟩, numbering⟩ := here
  · simp [Recognizer.step] at moved
  obtain ⟨whole, outline⟩ := outlined
  obtain ⟨step, rfl, ⟨token, behind, rfl, took, rfl⟩ | ⟨stays, moves, rfl⟩⟩ :=
    Recognizer.step_cons moved
  · refine .inl ⟨Goal.silent_take? outline.isOuter took, fun opens => ?_,
      fun later done => ⟨?_, ?_⟩⟩
    · rcases List.mem_cons.1 opens with rfl | behind
      · simp only [Goal.take?] at took
        split at took <;> simp only [Option.some.injEq, reduceCtorEq] at took <;> subst took <;>
          simp
      · exact List.mem_append_right _ behind
    · simp [whole]
    · have next := (outline.take (scanned token (by simp [whole])) took).of_ok done
      simpa using next
  · dsimp only at outline
    generalize isSpelt : taken.reverse.map Token.terminal = spelt at outline
    cases outline with
    | @classVariables tree _ alone holds =>
      cases moves
      have ready := holds.ready (generator.scope.count .field)
      refine .inr (.inl ⟨tree, rfl, rfl, rfl, ⟨alone, _, rest, whole, isSpelt, ?_⟩, holds, whole,
        isSpelt ▸ .members ready⟩)
      intro token first member
      have stays := stays token first
      simp only [List.mem_cons, List.not_mem_nil, or_false] at member
      rcases member with is | is <;> simp [Goal.take?, is] at stays
    | @members tree _ ready =>
      cases moves
      refine .inl ⟨rfl, by simp, fun later done => ⟨whole, ?_⟩⟩
      obtain rfl := Except.ok.inj done
      exact isSpelt ▸ .closing tree generator
    | locals =>
      cases moves
      exact .inr (.inr ⟨rfl, by simp [Goal.symbol]⟩)
    | classGroup _ naming | localGroup naming => exact absurd moves naming.not_pass
    | parameters _ _ _ listing => exact absurd moves listing.not_pass
    | _ => cases moves

end Outlined

/-- What was told up to a place of a run: nothing yet, or all of the class and of its subroutines as
far as they were recognized. -/
inductive EventsUpTo (tokens : List Token) : Recognizer → Generator → List Event → Prop
  | opening {here : Recognizer} {generator : Generator} (outlined : Outlined tokens here generator)
      (opens : .classVariables ∈ here.goals) : EventsUpTo tokens here generator []
  | opened {tree : ClassTree} {chapters : List Chapter} {here : Recognizer} {generator : Generator}
      (opens : Opens tokens tree) (className : generator.className = tree.name)
      (members : here.goals.all Goal.isMember = true)
      (begun : chapters ≠ [] ∨ Outlined tokens here generator) :
      EventsUpTo tokens here generator (tree.opened :: Chapter.story tree.name chapters)

namespace EventsUpTo

variable {limit : Nat} {tokens : List Token} {here next : Recognizer} {generator : Generator}
  {events : List Event} {actions : List Action}

theorem inOrder (upTo : EventsUpTo tokens here generator events) : EventsInOrder tokens events := by
  cases upTo with
  | opening => exact .inl rfl
  | opened opens => exact .inr ⟨_, _, opens, rfl⟩

theorem members_step (members : here.goals.all Goal.isMember = true)
    (moved : here.step = .ok (actions, next)) :
    (actions.all Action.isPlain = true ∨ actions = [.beginBody]) ∧
      next.goals.all Goal.isMember = true := by
  obtain ⟨goal, goals, taken, rest, numbering, step, rfl, moves⟩ := Recognizer.step_cases moved
  obtain ⟨token, rfl, took, rfl⟩ | ⟨line, rfl, -, moves, rfl⟩ := moves <;>
    obtain ⟨own, others⟩ := Bool.and_eq_true_iff.1 members
  · obtain ⟨plain, left⟩ := Goal.member_take? own took
    exact ⟨.inl plain, by rw [List.all_append, left, others]; rfl⟩
  · obtain ⟨plain, left⟩ := Goal.member_otherwise own moves
    exact ⟨plain, by rw [List.all_append, left, others]; rfl⟩

/-- Where the variables of the class end, the note on the class is told. -/
theorem step_opening (limit : Nat) (scanned : ∀ token ∈ tokens, token.Scanned)
    (outlined : Outlined tokens here generator) (opens : .classVariables ∈ here.goals)
    (moved : here.step = .ok (actions, next)) :
    EventsInOrder tokens (generator.performAll limit actions).1 ∧
      ∀ later, (generator.performAll limit actions).2 = .ok later →
        EventsUpTo tokens next later (generator.performAll limit actions).1 := by
  obtain ⟨silent, onward, outlined⟩ | ⟨tree, rfl, isHere, isNext, begins, holds, outlined⟩ |
    ⟨-, closed⟩ := outlined.step scanned moved
  · rw [Generator.events_performAll_of_isSilent silent]
    exact ⟨.inl rfl, fun later done => .opening (outlined later done) (onward opens)⟩
  · let later : Generator := { generator with fields := generator.scope.count .field }
    have opened := @opened tokens tree [] next later begins holds.className (isNext ▸ rfl)
      (.inr outlined)
    have note : Event.classOpened generator.className (generator.scope.count .field)
        (generator.scope.count .statics) = tree.opened := by
      rw [holds.className, holds.scope]
      simp only [Scope.count, ScopeLevel.get_counts_ofDeclarations, ClassTree.opened]
    have performed : generator.performAll limit [.closeVariables] =
        ([tree.opened], .ok later) := by
      rw [← note]
      rfl
    rw [performed]
    exact ⟨opened.inOrder, fun later done => Except.ok.inj done ▸ opened⟩
  · exact absurd opens closed

/-- Behind the variables, plain actions tell more of the last subroutine. Before the first one they
tell nothing. -/
theorem exists_longer {tree : ClassTree} {chapters : List Chapter} (limit : Nat)
    (scanned : ∀ token ∈ tokens, token.Scanned) (isMember : here.goals.all Goal.isMember = true)
    (begun : chapters ≠ [] ∨ Outlined tokens here generator)
    (moved : here.step = .ok (actions, next)) (plain : actions.all Action.isPlain = true) :
    ∃ longer : List Chapter,
      Chapter.story tree.name chapters ++ (generator.performAll limit actions).1 =
        Chapter.story tree.name longer ∧
      (longer ≠ [] ∨ ∀ later, (generator.performAll limit actions).2 = .ok later →
        Outlined tokens next later) := by
  obtain ⟨isPlain, -⟩ := generator.performAll_of_isPlain limit plain
  rcases begun with begun | outlined
  · obtain ⟨code, isCode, isPlain⟩ := Event.exists_of_isPlain isPlain
    obtain ⟨longer, begun, written⟩ := Chapter.exists_story_append tree.name begun isPlain
    exact ⟨longer, isCode ▸ written, .inl begun⟩
  · obtain ⟨silent, -, outlined⟩ | ⟨_, -, isHere, -⟩ | ⟨isBody, -⟩ := outlined.step scanned moved
    · rw [Generator.events_performAll_of_isSilent silent]
      exact ⟨chapters, List.append_nil _, .inr outlined⟩
    · rw [isHere] at isMember
      cases isMember
    · rw [isBody] at plain
      cases plain

/-- What the beginning of a body tells is a subroutine of its own. -/
theorem exists_chapter (limit : Nat) (generator : Generator) :
    ∃ chapter : Chapter, generator.performAll limit [.beginBody] =
      (chapter.events generator.className, .ok generator) := by
  refine ⟨⟨generator.kind, generator.name, generator.scope.count .locals,
    Generator.prologue generator.kind generator.fields, Generator.plain_prologue _ _⟩, ?_⟩
  rw [Generator.performAll_cons]
  simp [Generator.perform, Generator.beginBody, Generator.performAll, Generator.performOnto,
    Chapter.events]

theorem step (limit : Nat) (scanned : ∀ token ∈ tokens, token.Scanned)
    (upTo : EventsUpTo tokens here generator events) (moved : here.step = .ok (actions, next)) :
    EventsInOrder tokens (events ++ (generator.performAll limit actions).1) ∧
      ∀ later, (generator.performAll limit actions).2 = .ok later →
        EventsUpTo tokens next later (events ++ (generator.performAll limit actions).1) := by
  cases upTo with
  | opening outlined opens => exact step_opening limit scanned outlined opens moved
  | @opened tree chapters _ _ opens className isMember begun =>
    obtain ⟨plain | rfl, members⟩ := members_step isMember moved
    · obtain ⟨-, named⟩ := generator.performAll_of_isPlain limit plain
      obtain ⟨longer, written, begun⟩ := exists_longer limit scanned isMember begun moved plain
      rw [List.cons_append, written]
      refine ⟨.inr ⟨tree, longer, opens, rfl⟩, fun later done => ?_⟩
      exact .opened opens ((named later done).trans className) members
        (begun.imp_right fun outlined => outlined later done)
    · obtain ⟨chapter, performed⟩ := exists_chapter limit generator
      rw [performed, className, List.cons_append, ← Chapter.story_concat]
      have later := @opened tokens tree (chapters ++ [chapter]) next generator opens className
        members (.inl (by simp))
      exact ⟨later.inOrder, fun _ done => Except.ok.inj done ▸ later⟩

/-- Along a run, however its actions end. -/
theorem reaches {last : Recognizer} (scanned : ∀ token ∈ tokens, token.Scanned)
    (upTo : EventsUpTo tokens here generator events)
    (reach : Recognizer.Reaches here actions last) :
    EventsInOrder tokens (events ++ (generator.performAll limit actions).1) := by
  induction reach generalizing generator events with
  | refl =>
    exact (List.append_nil events).symm ▸ upTo.inOrder
  | @step here next last first rest moved _ ih =>
    obtain ⟨told, further⟩ := upTo.step limit scanned moved
    rw [Generator.performAll_append]
    rcases performed : generator.performAll limit first with ⟨emitted, refused | later⟩
    · rw [performed] at told
      exact told
    · rw [performed] at further
      rw [← List.append_assoc]
      exact ih (further later rfl)

end EventsUpTo

/-- However compiling a class ends, what is told of it goes by its subroutines. -/
theorem ClassCode.eventsInOrder (limit : Nat) {tokens : List Token}
    (scanned : ∀ token ∈ tokens, token.Scanned) :
    EventsInOrder tokens (ofTokens limit tokens).events := by
  obtain ⟨last, reach, -⟩ := Recognizer.reaches_stop (Recognizer.ofTokens tokens)
  have outlined : Outlined tokens (Recognizer.ofTokens tokens) .start := ⟨rfl, .start⟩
  have begun : EventsUpTo tokens (Recognizer.ofTokens tokens) .start [] :=
    .opening outlined (by simp [Recognizer.ofTokens, Goal.wholeClass])
  rw [events_ofTokens]
  exact begun.reaches scanned reach

end Jack
