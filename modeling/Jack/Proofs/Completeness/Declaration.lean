import Jack.Proofs.Completeness.Statement
import Jack.Proofs.Declarations

namespace Jack

/-- The same with these declarations in the innermost scope. -/
def Generator.holding (generator : Generator) (inner : List Declaration)
    (outer : List ScopeLevel) : Generator :=
  { generator with scope := ⟨.ofDeclarations inner, outer⟩ }

theorem Generator.performs_declare (limit : Nat) (generator : Generator) {kind : VarKind}
    {outer : List ScopeLevel} (declarations : List Declaration) (type : String) (name : Token)
    (level : kind.isClassLevel = outer.isEmpty) :
    Performs limit (generator.holding declarations outer) [.declare kind type name]
      (Declaration.Accepts declarations [⟨kind, type, name.lexeme⟩]) []
      (generator.holding (declarations ++ [⟨kind, type, name.lexeme⟩]) outer) := by
  have acts : (generator.holding declarations outer).perform limit (.declare kind type name) =
      (generator.holding declarations outer).declare kind type name.lexeme name.line := rfl
  rw [declare, holding, Scope.define_ofDeclarations type name.lexeme level] at acts
  by_cases known : name.lexeme ∈ declarations.map Declaration.name
  · rw [if_pos known] at acts
    exact .single (fun fits => absurd known fits.1.1) fun _ => ⟨_, _, acts⟩
  · rw [if_neg known] at acts
    by_cases full : 65535 ≤ Declaration.count kind declarations
    · rw [if_pos full] at acts
      exact .single (fun fits => absurd fits.1.2 (Nat.not_lt.2 full)) fun _ => ⟨_, _, acts⟩
    · rw [if_neg full] at acts
      exact .single (fun _ => acts) fun fails =>
        absurd ⟨⟨known, Nat.lt_of_not_le full⟩, trivial⟩ fails

variable {limit : Nat} {numbering : Numbering} {generator : Generator} {goal next : Goal}
  {kind : VarKind} {outer : List ScopeLevel} {tokens rest : List Token} {right : Prop}

/-- A name that is declared, in front of what is left. -/
theorem Leads.declare {declarations : List Declaration} {type text : String} {name : Token}
    {fits : Prop} {events : List Event} {there : Stage}
    (level : kind.isClassLevel = outer.isEmpty) (is : name.terminal = .name text)
    (takes : goal.take? numbering name = some ⟨[.declare kind type name], [next]⟩)
    (back : Leads limit [next] tokens rest
      ⟨numbering, generator.holding (declarations ++ [⟨kind, type, text⟩]) outer⟩ fits events
      there) :
    Leads limit [goal] (name :: tokens) rest ⟨numbering, generator.holding declarations outer⟩
      (Declaration.Accepts declarations [⟨kind, type, text⟩] ∧ fits) events there := by
  obtain ⟨isName, rfl⟩ := Token.kind_of_name is
  exact Leads.take _ takes (numbering.after_identifier isName)
    (generator.performs_declare limit declarations type name level) back

/-- The symbol that a goal ends with. -/
theorem Leads.close {closing : Token} {mark : Symbol} (is : closing.terminal = .symbol mark)
    (takes : goal.take? numbering closing = some ⟨[], []⟩) (generator : Generator) :
    Leads limit [goal] [closing] rest ⟨numbering, generator⟩ True []
      ⟨numbering, generator⟩ :=
  (Leads.take _ takes (numbering.after_symbol (Token.kind_of_symbol is)) (.nil limit generator)
    (Leads.nil limit rest _)).congr (and_self_iff.trans .rfl) rfl

/-- Names of one type, with the symbols between and behind them. -/
theorem moreVariables_leads (level : kind.isClassLevel = outer.isEmpty) (type : String)
    (names : List String) (declarations : List Declaration)
    (spelt : tokens.map Token.terminal =
      names.flatMap (fun name => [.symbol .comma, .name name]) ++ [.symbol .semicolon]) :
    Leads limit [.moreVariables kind type] tokens rest
      ⟨numbering, generator.holding declarations outer⟩
      (Declaration.Accepts declarations (names.map fun name => ⟨kind, type, name⟩)) []
      ⟨numbering, generator.holding
        (declarations ++ names.map fun name => ⟨kind, type, name⟩) outer⟩ := by
  induction names generalizing declarations tokens with
  | nil =>
    obtain ⟨closing, rfl, isClosing⟩ := List.map_eq_singleton_iff.1 spelt
    rw [List.map_nil, List.append_nil]
    exact Leads.close isClosing (by simp [Goal.take?, Token.kind_of_symbol isClosing]) _
  | cons text names ih =>
    obtain ⟨comma, tokens, rfl, isComma, spelt⟩ := List.map_eq_cons_iff.1 spelt
    obtain ⟨name, tokens, rfl, isName, spelt⟩ := List.map_eq_cons_iff.1 spelt
    have kindComma := Token.kind_of_symbol isComma
    have took : (Goal.moreVariables kind type).take? numbering comma =
        some ⟨[], [.variable kind type]⟩ := by
      simp [Goal.take?, kindComma]
    have tookName : (Goal.variable kind type).take? numbering name =
        some ⟨[.declare kind type name], [.moreVariables kind type]⟩ := by
      simp [Goal.take?, (Token.kind_of_name isName).1]
    rw [List.map_cons, List.append_cons]
    refine (Leads.take _ took (numbering.after_symbol kindComma) (.nil limit _)
      (Leads.declare level isName tookName (ih _ spelt))).congr ?_ rfl
    rw [true_and, ← Declaration.accepts_append]
    rfl

theorem TypeName.kind_mem (type : TypeName) {token : Token}
    (is : token.terminal = type.terminal) : token.kind ∈ Goal.typeKinds := by
  cases type with
  | named name => simp [Goal.typeKinds, (Token.kind_of_name is).1]
  | _ => simp [Goal.typeKinds, Token.kind_of_keyword is]

theorem TypeName.after (type : TypeName) {token : Token} (numbering : Numbering)
    (is : token.terminal = type.terminal) : numbering.after token = numbering := by
  cases type with
  | named name => exact numbering.after_identifier (Token.kind_of_name is).1
  | _ => exact numbering.after_keyword is (by decide)

theorem TypeName.lexeme_eq (type : TypeName) {token : Token}
    (is : token.terminal = type.terminal) (wellSpelt : token.WellSpelt) :
    token.lexeme = type.text := by
  cases type with
  | named name => exact (Token.kind_of_name is).2
  | _ => exact wellSpelt _ (Token.kind_of_keyword is)

/-- Variables of one type from the type on. -/
theorem declaration_leads {names : Names} (level : kind.isClassLevel = outer.isEmpty)
    (spelt : tokens.map Token.terminal = names.yield)
    (wellSpelt : right → ∀ token ∈ tokens, token.WellSpelt) :
    ∃ written, Declaration.Matches right written (names.declarations kind) ∧
      ∀ declarations, Leads limit [.declaration kind] tokens rest
        ⟨numbering, generator.holding declarations outer⟩
        (Declaration.Accepts declarations written) []
        ⟨numbering, generator.holding (declarations ++ written) outer⟩ := by
  obtain ⟨type, tokens, rfl, isType, spelt⟩ := List.map_eq_cons_iff.1 spelt
  obtain ⟨name, tokens, rfl, isName, spelt⟩ := List.map_eq_cons_iff.1 spelt
  have took : (Goal.declaration kind).take? numbering type =
      some ⟨[], [.variable kind type.lexeme]⟩ := by
    simp [Goal.take?, names.type.kind_mem isType]
  have tookName : (Goal.variable kind type.lexeme).take? numbering name =
      some ⟨[.declare kind type.lexeme name], [.moreVariables kind type.lexeme]⟩ := by
    simp [Goal.take?, (Token.kind_of_name isName).1]
  refine ⟨names.all.map fun name => ⟨kind, type.lexeme, name⟩, ⟨?_, fun holds => ?_⟩,
    fun declarations => ?_⟩
  · simp [Names.declarations, Declaration.key]
  · rw [names.type.lexeme_eq isType (wellSpelt holds type List.mem_cons_self)]
    rfl
  · rw [Names.all, List.map_cons, List.append_cons]
    refine (Leads.take _ took (names.type.after numbering isType) (.nil limit _)
      (Leads.declare level isName tookName (moreVariables_leads level _ _ _ spelt))).congr ?_ rfl
    rw [true_and, ← Declaration.accepts_append]
    rfl

/-- Declarations one after the other, each behind its keyword, up to what ends them. -/
theorem declarations_lead {Block : Type} (word : Block → Keyword) (kind : Block → VarKind)
    (names : Block → Names) {events : List Declaration → List Event}
    {later : List Declaration → Generator}
    (takes : ∀ block token, token.kind = .keyword (word block) →
      goal.take? numbering token = some ⟨[], [.declaration (kind block), goal]⟩)
    (counts : ∀ block, word block ∉
      [Keyword.kwIf, .kwWhile, .kwConstructor, .kwFunction, .kwMethod])
    (level : ∀ block, (kind block).isClassLevel = outer.isEmpty)
    (ends : ∀ declarations, Leads limit [goal] [] rest
      ⟨numbering, generator.holding declarations outer⟩ True (events declarations)
      ⟨numbering, later declarations⟩)
    (blocks : List Block)
    (spelt : tokens.map Token.terminal =
      blocks.flatMap fun block => .keyword (word block) :: (names block).yield)
    (wellSpelt : right → ∀ token ∈ tokens, token.WellSpelt) :
    ∃ written, Declaration.Matches right written
        (blocks.flatMap fun block => (names block).declarations (kind block)) ∧
      ∀ declarations, Leads limit [goal] tokens rest
        ⟨numbering, generator.holding declarations outer⟩
        (Declaration.Accepts declarations written) (events (declarations ++ written))
        ⟨numbering, later (declarations ++ written)⟩ := by
  induction blocks generalizing tokens with
  | nil =>
    rw [List.flatMap_nil, List.map_eq_nil_iff] at spelt
    subst spelt
    refine ⟨[], .refl [], fun declarations => ?_⟩
    rw [List.append_nil]
    exact ends declarations
  | cons block blocks ih =>
    obtain ⟨token, tokens, rfl, isWord, spelt⟩ := List.map_eq_cons_iff.1 spelt
    obtain ⟨front, back, rfl, isFront, isBack⟩ := List.map_eq_append_iff.1 spelt
    obtain ⟨first, matchesFirst, leads⟩ := declaration_leads (level block) isFront
      fun holds token member => wellSpelt holds token (by simp [member])
    obtain ⟨others, matchesOthers, leadsOthers⟩ := ih isBack
      fun holds token member => wellSpelt holds token (by simp [member])
    refine ⟨first ++ others, matchesFirst.append matchesOthers, fun declarations => ?_⟩
    rw [← List.append_assoc]
    refine (Leads.take _ (takes block token (Token.kind_of_keyword isWord))
      (numbering.after_keyword isWord (counts block)) (.nil limit _)
      (Leads.cons (leads declarations) (leadsOthers _))).congr ?_ rfl
    rw [true_and, Declaration.accepts_append]

/-- A parameter in front of what is left of the list. -/
theorem Leads.parameter {declarations : List Declaration} {parameter : Parameter}
    {type name : Token} {fits : Prop} {there : Stage} (level : outer ≠ [])
    (isType : type.terminal = parameter.type.terminal)
    (isName : name.terminal = .name parameter.name)
    (takes : ∀ token : Token, token.kind ∈ Goal.typeKinds →
      goal.take? numbering token = some ⟨[], [.parameterName token.lexeme]⟩)
    (back : Leads limit [.moreParameters] tokens rest ⟨numbering, generator.holding
      (declarations ++ [⟨.argument, type.lexeme, parameter.name⟩]) outer⟩ fits [] there) :
    Leads limit [goal] (type :: name :: tokens) rest
      ⟨numbering, generator.holding declarations outer⟩
      (Declaration.Accepts declarations [⟨.argument, type.lexeme, parameter.name⟩] ∧ fits) []
      there := by
  have tookName : (Goal.parameterName type.lexeme).take? numbering name =
      some ⟨[.declare .argument type.lexeme name], [.moreParameters]⟩ := by
    simp [Goal.take?, (Token.kind_of_name isName).1]
  exact (Leads.take _ (takes type (parameter.type.kind_mem isType))
    (parameter.type.after numbering isType) (.nil limit _)
    (Leads.declare (by simp [VarKind.isClassLevel, level]) isName tookName back)).congr
    (and_iff_right trivial) rfl

theorem Parameter.matches {parameter : Parameter} {type : Token}
    (isType : type.terminal = parameter.type.terminal)
    (wellSpelt : right → type.WellSpelt) :
    Declaration.Matches right [⟨.argument, type.lexeme, parameter.name⟩]
      [parameter.declaration] :=
  ⟨rfl, fun holds => by rw [parameter.type.lexeme_eq isType (wellSpelt holds)]; rfl⟩

/-- The parameters behind the first, up to the closing parenthesis. -/
theorem moreParameters_lead (limit : Nat) (level : outer ≠ []) (parameters : List Parameter)
    (spelt : tokens.map Token.terminal =
      parameters.flatMap (fun parameter => .symbol .comma :: parameter.yield) ++
        [.symbol .rightParen])
    (wellSpelt : right → ∀ token ∈ tokens, token.WellSpelt) :
    ∃ written, Declaration.Matches right written (parameters.map Parameter.declaration) ∧
      ∀ declarations, Leads limit [.moreParameters] tokens rest
        ⟨numbering, generator.holding declarations outer⟩
        (Declaration.Accepts declarations written) []
        ⟨numbering, generator.holding (declarations ++ written) outer⟩ := by
  induction parameters generalizing tokens with
  | nil =>
    obtain ⟨closing, rfl, isClosing⟩ := List.map_eq_singleton_iff.1 spelt
    refine ⟨[], .refl [], fun declarations => ?_⟩
    rw [List.append_nil]
    exact Leads.close isClosing (by simp [Goal.take?, Token.kind_of_symbol isClosing]) _
  | cons parameter parameters ih =>
    obtain ⟨comma, tokens, rfl, isComma, spelt⟩ := List.map_eq_cons_iff.1 spelt
    obtain ⟨type, tokens, rfl, isType, spelt⟩ := List.map_eq_cons_iff.1 spelt
    obtain ⟨name, tokens, rfl, isName, spelt⟩ := List.map_eq_cons_iff.1 spelt
    have kind := Token.kind_of_symbol isComma
    have took : Goal.moreParameters.take? numbering comma = some ⟨[], [.parameterType]⟩ := by
      simp [Goal.take?, kind]
    obtain ⟨written, matches', leads⟩ := ih spelt
      fun holds token member => wellSpelt holds token (by simp [member])
    refine ⟨[⟨.argument, type.lexeme, parameter.name⟩] ++ written,
      (Parameter.matches isType fun holds => wellSpelt holds type (by simp)).append matches',
      fun declarations => ?_⟩
    rw [← List.append_assoc]
    refine (Leads.take _ took (numbering.after_symbol kind) (.nil limit _)
      (Leads.parameter level isType isName (fun token member => by simp [Goal.take?, member])
        (leads _))).congr ?_ rfl
    rw [true_and, Declaration.accepts_append]

theorem parameters_lead (level : outer ≠ []) (parameters : List Parameter)
    (spelt : tokens.map Token.terminal =
      Parameter.yieldAll parameters ++ [.symbol .rightParen])
    (wellSpelt : right → ∀ token ∈ tokens, token.WellSpelt) :
    ∃ written, Declaration.Matches right written (parameters.map Parameter.declaration) ∧
      ∀ declarations, Leads limit [.parameters] tokens rest
        ⟨numbering, generator.holding declarations outer⟩
        (Declaration.Accepts declarations written) []
        ⟨numbering, generator.holding (declarations ++ written) outer⟩ := by
  cases parameters with
  | nil =>
    obtain ⟨closing, rfl, isClosing⟩ := List.map_eq_singleton_iff.1 spelt
    refine ⟨[], .refl [], fun declarations => ?_⟩
    rw [List.append_nil]
    exact Leads.close isClosing (by simp [Goal.take?, Token.kind_of_symbol isClosing]) _
  | cons parameter parameters =>
    obtain ⟨type, tokens, rfl, isType, spelt⟩ := List.map_eq_cons_iff.1 spelt
    obtain ⟨name, tokens, rfl, isName, spelt⟩ := List.map_eq_cons_iff.1 spelt
    obtain ⟨written, matches', leads⟩ := moreParameters_lead limit level parameters
      spelt fun holds token member => wellSpelt holds token (by simp [member])
    refine ⟨[⟨.argument, type.lexeme, parameter.name⟩] ++ written,
      (Parameter.matches isType fun holds => wellSpelt holds type (by simp)).append matches',
      fun declarations => ?_⟩
    rw [← List.append_assoc]
    refine (Leads.parameter level isType isName (fun token member => ?_) (leads _)).congr ?_ rfl
    · rw [Goal.take?, if_neg, if_pos member]
      intro closes
      rw [closes] at member
      simp [Goal.typeKinds] at member
    · rw [Declaration.accepts_append]

end Jack
