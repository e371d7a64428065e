import Jack.Proofs.Diagnosis.Arguments

namespace Jack

/-- What was taken of statements can go on to the end of a class. -/
theorem Recognizer.Reaches.inBody {taken ahead : List Token} {start : Numbering}
    {actions : List Action} {here : Recognizer} {tree : ClassTree} {subroutine : Subroutine}
    (reach : Reaches ⟨[.statements], ⟨taken, ahead⟩, start⟩ actions here)
    (header : taken.reverse.map Token.terminal = tree.front ++ subroutine.header)
    (first last : List Token) (whole : ahead = first ++ last ++ here.stream.rest) :
    ∃ body more, InBody (tree.add { subroutine with body }) { subroutine with body }
      ((taken.reverse ++ first).map Token.terminal) (last.map Token.terminal ++ more) := by
  have settled : Goal.Settled [.statements] := ⟨Goal.noConfusion, trivial⟩
  obtain ⟨more, means⟩ := reach.viable settled whole
  obtain ⟨body, isBody⟩ := means.single
  have split : body.yield =
      first.map Token.terminal ++ (last.map Token.terminal ++ more.map Token.terminal) := by
    rw [← isBody]
    simp
  rw [List.map_append, header]
  exact ⟨body, more.map Token.terminal, .of_split tree subroutine split⟩

/-- Among the statements of a subroutine: the tokens in front of them spell a class up to there, a
run of the recognizer leads from their beginning to the goals that are left, and the scope holds all
that the subroutine and its class declare. -/
structure Inside (tokens : List Token) (tree : ClassTree) (subroutine : Subroutine)
    (taken inside rest : List Token) (goals : List Goal) (numbering : Numbering)
    (generator : Generator) : Prop where
  whole : tokens = (inside ++ taken).reverse ++ rest
  header : taken.reverse.map Token.terminal = tree.front ++ subroutine.header
  reach : ∃ start actions,
    Recognizer.Reaches ⟨[.statements], ⟨taken, inside.reverse ++ rest⟩, start⟩ actions
        ⟨goals, ⟨inside ++ taken, rest⟩, numbering⟩ ∧
      ∀ name, .resolve name ∈ actions →
        subroutine.declares tree.name tree.declarations name.lexeme = true
  holds : generator.Holds tree.name (subroutine.declarations tree.name)
    [.ofDeclarations tree.declarations]

namespace Inside

variable {limit : Nat} {tokens taken inside rest : List Token} {tree : ClassTree}
  {subroutine : Subroutine} {goal : Goal} {goals : List Goal} {numbering : Numbering}
  {generator later : Generator} {next : Recognizer} {actions : List Action} {error : CompileError}

theorem step
    (within : Inside tokens tree subroutine taken inside rest (goal :: goals) numbering generator)
    (moved : (⟨goal :: goals, ⟨inside ++ taken, rest⟩, numbering⟩ : Recognizer).step =
      .ok (actions, next))
    (done : (generator.performAll limit actions).2 = .ok later) :
    ∃ more behind, next.stream = ⟨more ++ taken, behind⟩ ∧
      Inside tokens tree subroutine taken more behind next.goals next.numbering later := by
  obtain ⟨start, before, reach, resolved⟩ := within.reach
  have asks := reach.asks _ resolved moved
  have one : Recognizer.Reaches _ (actions ++ []) next := .step moved (.refl next)
  obtain ⟨first, isRest, isTaken⟩ := one.taken
  have ahead : inside.reverse ++ rest = (first.reverse ++ inside).reverse ++ next.stream.rest := by
    rw [show rest = _ from isRest]
    simp
  have stream : next.stream = ⟨first.reverse ++ inside ++ taken, next.stream.rest⟩ := by
    rw [List.append_assoc]
    exact congrArg (TokenStream.mk · _) isTaken
  refine ⟨first.reverse ++ inside, next.stream.rest, stream, ?_, within.header,
    ⟨start, before ++ (actions ++ []), ?_, ?_⟩,
    within.holds.sameNames (Generator.sameNames_performAll asks.isInner done)⟩
  · rw [within.whole, show rest = _ from isRest]
    simp
  · rw [← ahead, ← stream]
    exact reach.trans one
  · intro name member
    rw [List.append_nil] at member
    rcases List.mem_append.1 member with earlier | new
    · exact resolved name earlier
    · exact asks.resolved within.holds.declared_eq done name new

/-- A name that has to be a variable and is none, at a place where the statements can go on. -/
theorem undefined
    (within : Inside tokens tree subroutine taken inside rest goals numbering generator)
    {name : Token} {front after : List Token} {body : Statements} {more : List Terminal}
    (split : tokens = (front ++ taken).reverse ++ name :: after) (isName : name.kind = .identifier)
    (isVariable : IsVariable (front ++ taken).reverse after)
    (inBody : InBody (tree.add { subroutine with body }) { subroutine with body }
      ((taken.reverse ++ front.reverse).map Token.terminal)
      ([name].map Token.terminal ++ more))
    (absent : generator.environment.declared name.lexeme = false) :
    Diagnoses limit tokens (.undefined name.line name.lexeme) := by
  rw [← List.reverse_append, List.map_singleton, Token.terminal_of_identifier isName] at inBody
  rw [within.holds.declared_eq] at absent
  exact .undefined split isName isVariable inBody absent

/-- The target of an assignment. -/
theorem undefined_target {word name : Token} {more : List Token}
    (within : Inside tokens tree subroutine taken inside (name :: rest) (goal :: goals) numbering
      generator)
    (isLet : word.kind = .keyword .kwLet) (isName : name.kind = .identifier)
    (isInside : inside = word :: more)
    (moved : (⟨goal :: goals, ⟨inside ++ taken, name :: rest⟩, numbering⟩ : Recognizer).step =
      .ok (actions, next))
    (takes : next.stream.rest = rest)
    (refused : (generator.perform limit (.resolve name)).2 = .error error) :
    Diagnoses limit tokens error := by
  obtain ⟨start, before, reach, -⟩ := within.reach
  have acts : generator.perform limit (.resolve name) =
      generator.withVariable name fun _ => generator.emit [] := rfl
  obtain ⟨rfl, absent⟩ := Generator.refused_variable acts refused
  have isVariable : IsVariable (inside ++ taken).reverse rest :=
    .inl ⟨word, by simp [isInside], isLet⟩
  obtain ⟨body, further, inBody⟩ := (reach.trans (.step moved (.refl _))).inBody within.header
    inside.reverse [name] (by rw [takes]; exact List.append_cons ..)
  exact within.undefined within.whole isName isVariable inBody absent

/-- A name that is read. -/
theorem undefined_read {name : Token} {more : List Token}
    (within : Inside tokens tree subroutine taken (name :: more) rest goals numbering generator)
    (isName : name.kind = .identifier) (calm : Calm more)
    (alone : ∀ next ∈ rest.head?, next.kind ∉ [.symbol .leftParen, .symbol .dot])
    (refused : (generator.perform limit (.load name)).2 = .error error) :
    Diagnoses limit tokens error := by
  obtain ⟨start, before, reach, -⟩ := within.reach
  have acts : generator.perform limit (.load name) =
      generator.withVariable name fun found =>
        generator.emit [.push found.kind.segment found.index] := rfl
  obtain ⟨rfl, absent⟩ := Generator.refused_variable acts refused
  have split : tokens = (more ++ taken).reverse ++ name :: rest := by simpa using within.whole
  obtain ⟨last, front, rfl, other⟩ := calm
  have isVariable : IsVariable (last :: front ++ taken).reverse rest :=
    .inr ⟨by simpa using other, alone⟩
  obtain ⟨body, further, inBody⟩ := reach.inBody within.header (last :: front).reverse [name]
    (by simp)
  exact within.undefined split isName isVariable inBody absent

/-- A call with more arguments than are counted in a word. -/
theorem tooManyArguments {call : Call} {count : Nat}
    (within : Inside tokens tree subroutine taken inside rest
      (.perform [.argument call count] :: goals) numbering generator)
    (many : 65535 <
      receivers generator.environment.declared (Generator.Call.qualifierName call) + count) :
    Diagnoses limit tokens (.tooManyArguments call.callee.line call.callee.lexeme) := by
  obtain ⟨start, before, reach, -⟩ := within.reach
  obtain ⟨listed, more, opening, arguments, isTaken, isListed, rfl, -, isOpening, isName,
    qualifies⟩ := reach.arguments rfl rfl
  obtain rfl : inside = listed.reverse ++ opening :: call.callee :: more :=
    List.append_cancel_right (isTaken.trans (by simp))
  have whole : tokens = (more ++ taken).reverse ++ call.callee :: opening :: (listed ++ rest) := by
    simpa using within.whole
  obtain ⟨body, further, inBody⟩ := reach.inBody within.header more.reverse
    (call.callee :: opening :: listed) (by simp)
  rw [← List.reverse_append, List.map_cons, List.map_cons, Token.terminal_of_identifier isName,
    Token.terminal_of_symbol isOpening, isListed] at inBody
  have known : generator.environment.declared =
      subroutine.declares tree.name tree.declarations := funext within.holds.declared_eq
  rw [known, Generator.Call.qualifierName, ← qualifies] at many
  exact .tooManyArguments whole isName isOpening isListed inBody many

/-- What is refused among statements is at fault. -/
theorem diagnoses (scanned : ∀ token ∈ tokens, token.Scanned)
    (within : Inside tokens tree subroutine taken inside rest (goal :: goals) numbering generator)
    (moved : (⟨goal :: goals, ⟨inside ++ taken, rest⟩, numbering⟩ : Recognizer).step =
      .ok (actions, next))
    (refused : (generator.performAll limit actions).2 = .error error) :
    Diagnoses limit tokens error := by
  obtain ⟨start, before, reach, resolved⟩ := within.reach
  have whole := within.whole
  have declared := within.holds.declared_eq
  cases reach.asks _ resolved moved with
  | safe safe =>
    obtain ⟨later, done⟩ := generator.performAll_isSafe limit safe
    rw [done] at refused
    cases refused
  | @resolve word name more behind isLet isName isInside isRest =>
    rw [Generator.result_singleton] at refused
    subst isRest
    obtain ⟨step, -, ⟨token, left, isLeft, -, rfl⟩ | ⟨-, moves, -⟩⟩ := Recognizer.step_cons moved
    · obtain ⟨rfl, rfl⟩ := List.cons.inj isLeft
      exact within.undefined_target isLet isName isInside moved rfl refused
    · cases moves
  | @target _ name isKnown =>
    rw [Generator.result_singleton,
      (generator.perform_of_declared limit ((declared _).trans isKnown)).1] at refused
    cases refused
  | @read name more isName calm isInside alone =>
    rw [Generator.result_singleton] at refused
    subst isInside
    exact within.undefined_read isName calm alone refused
  | @store _ name isKnown =>
    rw [Generator.result_singleton,
      (generator.perform_of_declared limit ((declared _).trans isKnown)).2] at refused
    cases refused
  | @integer constant behind is isRest =>
    rw [Generator.result_singleton] at refused
    have member : constant ∈ tokens := by simp [whole, isRest]
    obtain ⟨rfl, large⟩ := Generator.refused_integer ((scanned _ member).isInteger is) refused
    exact .integer member is large
  | @string constant behind is isRest =>
    rw [Generator.result_singleton] at refused
    have member : constant ∈ tokens := by simp [whole, isRest]
    obtain ⟨text, holds⟩ := (scanned _ member).isString is
    obtain ⟨rfl, large⟩ := Generator.refused_string holds refused
    exact .string member is holds large
  | nest calm =>
    rw [Generator.result_singleton] at refused
    obtain ⟨last, more, rfl, -⟩ := calm
    obtain rfl := Generator.refused_nest refused
    cases rest with
    | nil => exact .nestingTooDeep (by simp [whole] : last ∈ tokens)
    | cons token rest => exact .nestingTooDeep (by simp [whole] : token ∈ tokens)
  | argument call count =>
    rw [Generator.result_singleton] at refused
    obtain ⟨rfl, many⟩ := Generator.refused_argument refused
    exact within.tooManyArguments many

end Inside

end Jack
