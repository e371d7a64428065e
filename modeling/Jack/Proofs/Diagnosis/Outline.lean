import Jack.Proofs.Diagnosis.Body
import Jack.Proofs.Diagnosis.Lists

namespace Jack

/-- The class of a tree has this name, and the scope of its next subroutine will lie inside that of
its variables. -/
structure Generator.Ready (generator : Generator) (tree : ClassTree) : Prop where
  className : generator.className = tree.name
  fresh : generator.fresh = ⟨.empty, [.ofDeclarations tree.declarations]⟩

/-- What is left of a class behind its variables. -/
abbrev Goal.members : List Goal :=
  [.subroutines, .symbol .rightBrace]

/-- What is left of a class behind the parameters of a subroutine. -/
abbrev Goal.ahead : List Goal :=
  .symbol .leftBrace :: .localVariables :: .statements :: .symbol .rightBrace :: members

/-- Where the recognizer and the generator stand outside of statements: the goals that are left,
what was taken in front of them, and what the scope holds. -/
inductive Outline : List Goal → List Terminal → Generator → Prop
  | start : Outline Goal.wholeClass [] .start
  | word : Outline (.className :: .symbol .leftBrace :: .classVariables :: Goal.members)
      [.keyword .kwClass] .start
  | name (name : String) : Outline (.symbol .leftBrace :: .classVariables :: Goal.members)
      [.keyword .kwClass, .name name] { Generator.start with className := name }
  | classVariables {tree : ClassTree} {generator : Generator} (alone : tree.subroutines = [])
      (holds : generator.Holds tree.name tree.declarations []) :
      Outline (.classVariables :: Goal.members) tree.front generator
  | classGroup {tree : ClassTree} {generator : Generator} {kind : ClassKind} {goal : Goal}
      {part : List Terminal} {news : List Declaration} (alone : tree.subroutines = [])
      (naming : Naming kind.varKind goal part news)
      (holds : generator.Holds tree.name (tree.declarations ++ news) []) :
      Outline (goal :: .classVariables :: Goal.members)
        (tree.front ++ .keyword kind.word :: part) generator
  | members {tree : ClassTree} {generator : Generator} (ready : generator.Ready tree) :
      Outline Goal.members tree.front generator
  | kind {tree : ClassTree} {generator : Generator} (kind : SubroutineKind)
      (ready : generator.Ready tree) :
      Outline (.returnType kind :: Goal.members) (tree.front ++ [.keyword kind.word]) generator
  | result {tree : ClassTree} {generator : Generator} (kind : SubroutineKind)
      (result : Option TypeName) (ready : generator.Ready tree) :
      Outline (.subroutineName kind :: Goal.members)
        (tree.front ++ [.keyword kind.word, TypeName.terminalOrVoid result]) generator
  | subroutineName {tree : ClassTree} {generator : Generator} (kind : SubroutineKind)
      (result : Option TypeName) (name : String)
      (holds : generator.Holds tree.name (kind.object tree.name)
        [.ofDeclarations tree.declarations]) :
      Outline (.symbol .leftParen :: .parameters :: Goal.ahead)
        (tree.front ++ [.keyword kind.word, TypeName.terminalOrVoid result, .name name]) generator
  | parameters {tree : ClassTree} {generator : Generator} {goal : Goal} {part : List Terminal}
      {parameters : List Parameter} (kind : SubroutineKind) (result : Option TypeName)
      (name : String) (listing : Listing goal part parameters)
      (holds : generator.Holds tree.name
        (kind.object tree.name ++ parameters.map Parameter.declaration)
        [.ofDeclarations tree.declarations]) :
      Outline (goal :: Goal.ahead)
        (tree.front ++ .keyword kind.word :: TypeName.terminalOrVoid result :: .name name ::
          .symbol .leftParen :: part) generator
  | parenthesis {tree : ClassTree} {generator : Generator} (kind : SubroutineKind)
      (result : Option TypeName) (name : String) (parameters : List Parameter)
      (holds : generator.Holds tree.name
        (kind.object tree.name ++ parameters.map Parameter.declaration)
        [.ofDeclarations tree.declarations]) :
      Outline Goal.ahead
        (tree.front ++ .keyword kind.word :: TypeName.terminalOrVoid result :: .name name ::
          .symbol .leftParen :: (Parameter.yieldAll parameters ++ [.symbol .rightParen])) generator
  | locals {tree : ClassTree} {generator : Generator} {subroutine : Subroutine}
      (holds : generator.Holds tree.name (subroutine.declarations tree.name)
        [.ofDeclarations tree.declarations]) :
      Outline (.localVariables :: .statements :: .symbol .rightBrace :: Goal.members)
        (tree.front ++ subroutine.header) generator
  | localGroup {tree : ClassTree} {generator : Generator} {subroutine : Subroutine} {goal : Goal}
      {part : List Terminal} {news : List Declaration} (naming : Naming .locals goal part news)
      (holds : generator.Holds tree.name (subroutine.declarations tree.name ++ news)
        [.ofDeclarations tree.declarations]) :
      Outline (goal :: .localVariables :: .statements :: .symbol .rightBrace :: Goal.members)
        (tree.front ++ subroutine.header ++ .keyword .kwVar :: part) generator
  | closing (tree : ClassTree) (generator : Generator) :
      Outline [.symbol .rightBrace] tree.front generator
  | done (tree : ClassTree) (generator : Generator) : Outline [] tree.yield generator

/-- An error is true if a token stands behind these terminals. -/
def Blames (limit : Nat) (spelt : List Terminal) (token : Token) (error : CompileError) : Prop :=
  ∀ before after, before.map Token.terminal = spelt →
    Diagnoses limit (before ++ token :: after) error

namespace Generator

variable {limit : Nat} {generator : Generator} {className type : String}
  {declared : List Declaration} {outer : List ScopeLevel} {kind : VarKind} {token : Token}
  {spelt : List Terminal} {holds : Generator → Prop}

theorem Holds.answers (own : generator.Holds className declared outer)
    (level : kind.isClassLevel = outer.isEmpty) (scanned : token.Scanned)
    (isName : token.kind = .identifier)
    (declares : DeclaresNext spelt declared ⟨kind, type, token.lexeme⟩)
    (next : ∀ later : Generator,
      later.Holds className (declared ++ [⟨kind, type, token.lexeme⟩]) outer → holds later) :
    generator.Answers limit [.declare kind type token] holds (Blames limit spelt token) := by
  unfold Answers
  split <;> rename_i outcome
  · exact next _ (own.declare level outcome)
  · rintro before after rfl
    obtain ⟨rfl, known⟩ | ⟨rfl, fresh, full⟩ := own.refused_declare level outcome
    · exact .redefined rfl isName (scanned.isName isName .kwThis) declares rfl known
    · exact .tooMany rfl isName declares rfl fresh full

/-- Behind the variables of a class its subroutines begin. -/
theorem Holds.ready {tree : ClassTree} (holds : generator.Holds tree.name tree.declarations [])
    (fields : Nat) : Generator.Ready { generator with fields } tree where
  className := holds.className
  fresh := by
    simp only [fresh, holds.scope]
    rfl

/-- Behind a subroutine the next one begins. -/
theorem Holds.ready_add {tree : ClassTree}
    (holds : generator.Holds tree.name declared [.ofDeclarations tree.declarations])
    (subroutine : Subroutine) : generator.Ready (tree.add subroutine) where
  className := holds.className
  fresh := by
    simp only [fresh, holds.scope]
    rfl

end Generator

/-- A class with one group of variables more. -/
def ClassTree.addVariables (tree : ClassTree) (group : ClassVariables) : ClassTree :=
  { tree with classVariables := tree.classVariables ++ [group] }

theorem ClassTree.front_addVariables {tree : ClassTree} (alone : tree.subroutines = [])
    (group : ClassVariables) : (tree.addVariables group).front = tree.front ++ group.yield := by
  simp [front, addVariables, alone]

theorem ClassTree.declarations_addVariables (tree : ClassTree) (group : ClassVariables) :
    (tree.addVariables group).declarations =
      tree.declarations ++ group.names.declarations group.kind.varKind := by
  simp [declarations, addVariables]

/-- A subroutine with one group of local variables more, and without statements. -/
def Subroutine.addLocals (subroutine : Subroutine) (names : Names) : Subroutine :=
  { subroutine with locals := subroutine.locals ++ [names], body := .done }

theorem Subroutine.header_addLocals (subroutine : Subroutine) (names : Names) :
    (subroutine.addLocals names).header =
      subroutine.header ++ .keyword .kwVar :: names.yield := by
  simp [header, addLocals]

theorem Subroutine.declarations_addLocals (className : String) (subroutine : Subroutine)
    (names : Names) : (subroutine.addLocals names).declarations className =
      subroutine.declarations className ++ names.declarations .locals := by
  simp [declarations, addLocals]

namespace Outline

variable {limit : Nat} {goal : Goal} {goals : List Goal} {spelt : List Terminal}
  {generator : Generator} {token : Token} {numbering : Numbering} {step : Goal.Step}

/-- The names of a group of class variables. -/
theorem take_classGroup {tree : ClassTree} {kind : ClassKind} {part : List Terminal}
    {news : List Declaration} (alone : tree.subroutines = [])
    (naming : Naming kind.varKind goal part news)
    (holds : generator.Holds tree.name (tree.declarations ++ news) []) (scanned : token.Scanned)
    (took : goal.take? numbering token = some step) :
    generator.Answers limit step.actions
      (Outline (step.goals ++ .classVariables :: Goal.members)
        (tree.front ++ .keyword kind.word :: part ++ [token.terminal]))
      (Blames limit (tree.front ++ .keyword kind.word :: part) token) := by
  rw [List.append_assoc, List.cons_append]
  obtain ⟨next, rfl, naming⟩ | ⟨type, next, names, rfl, isName, naming, spelt, declares⟩ |
    ⟨names, rfl, spelt, declares⟩ := naming.take scanned.wellSpelt took
  · exact .classGroup alone naming holds
  · have level : kind.varKind.isClassLevel = true := by cases kind <;> rfl
    refine holds.answers level scanned isName
      (.ofClass (tree.addVariables ⟨kind, names⟩) [.semicolon, .rightBrace] alone ?_ ?_)
      fun later holds => ?_
    · rw [ClassTree.declarations_addVariables, declares, List.append_assoc]
    · rw [ClassTree.yield_eq_front, ClassTree.front_addVariables alone, ClassVariables.yield, spelt]
      simp
    · rw [List.append_assoc] at holds
      exact .classGroup alone naming holds
  · have next : Outline _ (tree.addVariables ⟨kind, names⟩).front generator :=
      .classVariables alone (by rw [ClassTree.declarations_addVariables, declares]; exact holds)
    rw [ClassTree.front_addVariables alone, ClassVariables.yield, spelt] at next
    exact next

/-- The names of a group of local variables. -/
theorem take_localGroup {tree : ClassTree} {subroutine : Subroutine} {part : List Terminal}
    {news : List Declaration} (naming : Naming .locals goal part news)
    (holds : generator.Holds tree.name (subroutine.declarations tree.name ++ news)
      [.ofDeclarations tree.declarations]) (scanned : token.Scanned)
    (took : goal.take? numbering token = some step) :
    generator.Answers limit step.actions
      (Outline (step.goals ++ .localVariables :: .statements :: .symbol .rightBrace ::
          Goal.members)
        (tree.front ++ subroutine.header ++ .keyword .kwVar :: part ++ [token.terminal]))
      (Blames limit (tree.front ++ subroutine.header ++ .keyword .kwVar :: part) token) := by
  rw [List.append_assoc (tree.front ++ subroutine.header), List.cons_append]
  obtain ⟨next, rfl, naming⟩ | ⟨type, next, names, rfl, isName, naming, spelt, declares⟩ |
    ⟨names, rfl, spelt, declares⟩ := naming.take scanned.wellSpelt took
  · exact .localGroup naming holds
  · refine holds.answers rfl scanned isName (.ofSubroutine
      (tree.add (subroutine.addLocals names)) [.semicolon, .rightBrace, .rightBrace] rfl rfl ?_ ?_)
      fun later holds => ?_
    · rw [List.append_assoc, ← declares]
      exact subroutine.declarations_addLocals tree.name names
    · rw [ClassTree.yield_eq_front, ClassTree.front_add, Subroutine.yield_eq_header,
        Subroutine.header_addLocals, spelt]
      simp [Subroutine.addLocals, Statements.yield]
    · rw [List.append_assoc] at holds
      exact .localGroup naming holds
  · have next : Outline _ (tree.front ++ (subroutine.addLocals names).header) generator :=
      .locals (by rw [Subroutine.declarations_addLocals, declares]; exact holds)
    rw [Subroutine.header_addLocals, spelt, ← List.append_assoc] at next
    exact next

/-- The parameters of a subroutine. -/
theorem take_parameters {tree : ClassTree} {part : List Terminal} {parameters : List Parameter}
    (kind : SubroutineKind) (result : Option TypeName) (name : String)
    (listing : Listing goal part parameters)
    (holds : generator.Holds tree.name
      (kind.object tree.name ++ parameters.map Parameter.declaration)
      [.ofDeclarations tree.declarations]) (scanned : token.Scanned)
    (took : goal.take? numbering token = some step) :
    generator.Answers limit step.actions
      (Outline (step.goals ++ Goal.ahead)
        (tree.front ++ .keyword kind.word :: TypeName.terminalOrVoid result :: .name name ::
          .symbol .leftParen :: part ++ [token.terminal]))
      (Blames limit (tree.front ++ .keyword kind.word :: TypeName.terminalOrVoid result ::
        .name name :: .symbol .leftParen :: part) token) := by
  rw [List.append_assoc]
  obtain ⟨next, rfl, listing⟩ | ⟨parameter, next, rfl, isName, named, listing, spelt⟩ |
    ⟨rfl, closes, rfl⟩ := listing.take scanned.wellSpelt took
  · exact .parameters kind result name listing holds
  · have isLast : (⟨.argument, parameter.type.text, token.lexeme⟩ : Declaration) =
        parameter.declaration := by rw [← named]; rfl
    refine holds.answers rfl scanned isName (.ofSubroutine
      (tree.add ⟨kind, result, name, parameters ++ [parameter], [], .done⟩)
      [.rightParen, .leftBrace, .rightBrace, .rightBrace] rfl rfl ?_ ?_) fun later holds => ?_
    · rw [isLast]
      simp [Subroutine.declarations, ClassTree.add]
    · rw [ClassTree.yield_eq_front, ClassTree.front_add, Subroutine.yield, spelt]
      simp [Statements.yield]
    · rw [isLast, List.append_assoc] at holds
      refine .parameters kind result name listing ?_
      rw [List.map_append]
      exact holds
  · rw [closes]
    exact .parenthesis kind result name parameters holds

theorem take (outline : Outline (goal :: goals) spelt generator) (scanned : token.Scanned)
    (took : goal.take? numbering token = some step) :
    generator.Answers limit step.actions
      (Outline (step.goals ++ goals) (spelt ++ [token.terminal])) (Blames limit spelt token) := by
  cases outline with
  | start =>
    obtain ⟨is, rfl⟩ := Goal.eq_of_takeIf took
    rw [Token.terminal_of_keyword is]
    exact .word
  | word =>
    obtain ⟨is, rfl⟩ := Goal.eq_of_takeIf took
    rw [Token.terminal_of_identifier is]
    exact .name token.lexeme
  | name name =>
    obtain ⟨is, rfl⟩ := Goal.eq_of_takeIf took
    rw [Token.terminal_of_symbol is]
    have next : Outline _ (ClassTree.front ⟨name, [], []⟩)
        { Generator.start with className := name } :=
      .classVariables rfl ⟨rfl, rfl, Declaration.accepted_nil⟩
    exact next
  | @classVariables tree _ alone holds =>
    have begins (kind : ClassKind) (is : token.kind = .keyword kind.word) :
        Outline (.declaration kind.varKind :: .classVariables :: Goal.members)
          (tree.front ++ [token.terminal]) generator := by
      rw [Token.terminal_of_keyword is]
      exact .classGroup alone .type (by rw [List.append_nil]; exact holds)
    simp only [Goal.take?] at took
    split at took <;> rename_i is <;> simp only [Option.some.injEq, reduceCtorEq] at took <;>
      subst took
    · exact begins .statics is
    · exact begins .field is
  | classGroup alone naming holds => exact take_classGroup alone naming holds scanned took
  | @members tree _ ready =>
    have begins (kind : SubroutineKind) (is : token.kind = .keyword kind.word) :
        Outline (.returnType kind :: Goal.members) (tree.front ++ [token.terminal]) generator := by
      rw [Token.terminal_of_keyword is]
      exact .kind kind ready
    simp only [Goal.take?] at took
    split at took <;> rename_i is <;> simp only [Option.some.injEq, reduceCtorEq] at took <;>
      subst took
    · exact begins .constructor is
    · exact begins .function is
    · exact begins .method is
  | kind kind ready =>
    obtain ⟨member, rfl⟩ := Goal.eq_of_takeIf took
    obtain ⟨result, isResult⟩ := exists_result member
    rw [List.append_assoc, isResult]
    exact .result kind result ready
  | @result tree _ kind result ready =>
    obtain ⟨is, rfl⟩ := Goal.eq_of_takeIf took
    rw [Token.terminal_of_identifier is, List.append_assoc]
    refine Generator.Performs.answers (generator.performs_beginSubroutine limit kind token
      (by simp) ready.fresh) (.subroutineName kind result token.lexeme ?_)
    exact ⟨ready.className, by rw [ready.className]; rfl, Declaration.accepted_object ..⟩
  | subroutineName kind result name holds =>
    obtain ⟨is, rfl⟩ := Goal.eq_of_takeIf took
    rw [Token.terminal_of_symbol is, List.append_assoc]
    exact .parameters kind result name .first (by rw [List.map_nil, List.append_nil]; exact holds)
  | parameters kind result name listing holds =>
    exact take_parameters kind result name listing holds scanned took
  | @parenthesis tree _ kind result name parameters holds =>
    obtain ⟨is, rfl⟩ := Goal.eq_of_takeIf took
    have next : Outline _
        (tree.front ++ Subroutine.header ⟨kind, result, name, parameters, [], .done⟩) generator :=
      .locals (by simpa [Subroutine.declarations] using holds)
    rw [Token.terminal_of_symbol is, List.append_assoc]
    simp only [Subroutine.header, List.flatMap_nil] at next
    show Outline _ _ generator
    simpa using next
  | locals holds =>
    obtain ⟨is, rfl⟩ := Goal.eq_of_takeIf took
    rw [Token.terminal_of_keyword is]
    exact .localGroup .type (by rw [List.append_nil]; exact holds)
  | localGroup naming holds => exact take_localGroup naming holds scanned took
  | closing tree =>
    obtain ⟨is, rfl⟩ := Goal.eq_of_takeIf took
    rw [Token.terminal_of_symbol is, ← tree.yield_eq_front]
    exact .done tree generator

/-- Outside of statements the recognizer goes on without a token where the variables of a class, its
subroutines or the local variables of a subroutine end. Behind the last of these come statements. -/
theorem pass {line : Nat} {blames : CompileError → Prop}
    (outline : Outline (goal :: goals) spelt generator)
    (moves : goal.otherwise line = .ok step) :
    generator.Answers limit step.actions (Outline (step.goals ++ goals) spelt) blames ∨
      ∃ (tree : ClassTree) (subroutine : Subroutine), step = ⟨[.beginBody], []⟩ ∧
        goals = .statements :: .symbol .rightBrace :: Goal.members ∧
        spelt = tree.front ++ subroutine.header ∧
        generator.Holds tree.name (subroutine.declarations tree.name)
          [.ofDeclarations tree.declarations] := by
  cases outline with
  | @classVariables tree _ alone holds =>
    cases moves
    have ready := holds.ready (generator.scope.count .field)
    exact .inl (.members ready)
  | @members tree _ ready =>
    cases moves
    exact .inl (.closing tree generator)
  | @locals tree _ subroutine holds =>
    cases moves
    exact .inr ⟨tree, subroutine, rfl, rfl, rfl, holds⟩
  | classGroup _ naming | localGroup naming => exact absurd moves naming.not_pass
  | parameters _ _ _ listing => exact absurd moves listing.not_pass
  | _ => cases moves

end Outline

end Jack
