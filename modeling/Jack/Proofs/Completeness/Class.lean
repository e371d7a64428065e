import Jack.Proofs.Completeness.Declaration

namespace Jack

variable {limit : Nat} {numbering : Numbering} {generator : Generator} {outer : List ScopeLevel}
  {tokens rest : List Token} {right : Prop}

namespace Generator

/-- The scope that a subroutine begins with. -/
def fresh (generator : Generator) : Scope :=
  if generator.scope.isSubroutine then generator.scope.reset else generator.scope.enter

/-- A subroutine has begun. -/
def begun (generator : Generator) (kind : SubroutineKind) (name : String) : Generator :=
  { generator with kind, name, subroutines := generator.subroutines + 1 }

theorem performs_closeVariables (limit : Nat) (generator : Generator)
    (declarations : List Declaration) :
    Performs limit (generator.holding declarations outer) [.closeVariables] True
      [.classOpened generator.className (Declaration.count .field declarations)
        (Declaration.count .statics declarations)]
      ({ generator with fields := Declaration.count .field declarations }.holding declarations
        outer) := by
  simp only [← ScopeLevel.get_counts_ofDeclarations]
  exact .always rfl

theorem performs_beginSubroutine (limit : Nat) (generator : Generator) (kind : SubroutineKind)
    (name : Token) (level : outer ≠ []) (new : generator.fresh = ⟨.empty, outer⟩) :
    Performs limit generator [.beginSubroutine kind name] True []
      ((generator.begun kind name.lexeme).holding (kind.object generator.className) outer) := by
  cases kind with
  | method =>
    have acts : generator.perform limit (.beginSubroutine .method name) =
        ((generator.begun .method name.lexeme).holding [] outer).declare .argument
          generator.className "this" name.line := by
      simp only [perform, beginSubroutine]
      rw [← fresh, new]
      rfl
    rw [declare, holding, Scope.define_ofDeclarations _ _ (by simp [VarKind.isClassLevel, level])]
      at acts
    exact .always acts
  | constructor | function =>
    refine .always ?_
    simp only [perform, beginSubroutine]
    rw [← fresh, new]
    rfl

/-- What is emitted before the statements of a subroutine. -/
def opened (generator : Generator) (locals : Nat) : List Event :=
  .subroutineOpened generator.kind (generator.className ++ "." ++ generator.name) locals ::
    (.function (generator.className ++ "." ++ generator.name) locals ::
      prologue generator.kind generator.fields).map .instruction

theorem performs_beginBody (limit : Nat) (generator : Generator)
    (declarations : List Declaration) :
    Performs limit (generator.holding declarations outer) [.beginBody] True
      (generator.opened (Declaration.count .locals declarations))
      (generator.holding declarations outer) := by
  rw [← ScopeLevel.get_counts_ofDeclarations]
  exact .always rfl

variable {inner declarations : List Declaration}

theorem declared_holding (generator : Generator) (inner declarations : List Declaration)
    (name : String) :
    (generator.holding inner [.ofDeclarations declarations]).environment.declared name =
      (inner ++ declarations).any (·.name = name) := by
  rw [List.any_append, ← ScopeLevel.isSome_getElem?_ofDeclarations,
    ← ScopeLevel.isSome_getElem?_ofDeclarations]
  simp only [Environment.declared, environment, holding, Scope.lookup?, List.findSome?_cons,
    List.findSome?_nil]
  cases (ScopeLevel.ofDeclarations inner).declared[name]? <;>
    cases (ScopeLevel.ofDeclarations declarations).declared[name]? <;> rfl

theorem environment_holding (generator : Generator) (accepted : Declaration.Accepted inner)
    (acceptedOuter : Declaration.Accepted declarations) :
    (generator.holding inner [.ofDeclarations declarations]).environment =
      ⟨generator.className, generator.name, fun name =>
        (Declaration.find? inner name).or (Declaration.find? declarations name)⟩ := by
  simp only [environment, holding, Environment.mk.injEq, true_and]
  funext name
  simp only [Scope.lookup?, List.findSome?_cons, List.findSome?_nil,
    ScopeLevel.getElem?_ofDeclarations accepted.distinct,
    ScopeLevel.getElem?_ofDeclarations acceptedOuter.distinct]
  cases Declaration.find? inner name <;> cases Declaration.find? declarations name <;> rfl

end Generator

/-- The variables of a class, up to its subroutines. -/
theorem classVariables_lead (groups : List ClassVariables)
    (spelt : tokens.map Token.terminal = groups.flatMap ClassVariables.yield)
    (ends : ∀ token ∈ rest.head?, token.kind ≠ .keyword .kwStatic ∧
      token.kind ≠ .keyword .kwField)
    (wellSpelt : right → ∀ token ∈ tokens, token.WellSpelt) :
    ∃ written, Declaration.Matches right written
        (groups.flatMap fun group => group.names.declarations group.kind.varKind) ∧
      Leads limit [.classVariables] tokens rest ⟨numbering, generator.holding [] []⟩
        (Declaration.Accepts [] written)
        [.classOpened generator.className (Declaration.count .field written)
          (Declaration.count .statics written)]
        ⟨numbering, Generator.holding
          { generator with fields := Declaration.count .field written } written []⟩ := by
  have stays : ∀ token ∈ rest.head?, Goal.classVariables.take? numbering token = none := by
    intro token head
    obtain ⟨noStatic, noField⟩ := ends token head
    simp only [Goal.take?]
  have closes (declarations : List Declaration) :
      Leads limit [.classVariables] [] rest ⟨numbering, generator.holding declarations []⟩ True
        [.classOpened generator.className (Declaration.count .field declarations)
          (Declaration.count .statics declarations)]
        ⟨numbering, Generator.holding
          { generator with fields := Declaration.count .field declarations } declarations []⟩ :=
    Leads.leave stays (fun _ => rfl) (generator.performs_closeVariables limit declarations)
  obtain ⟨written, found, leads⟩ := declarations_lead
    (fun group : ClassVariables => group.kind.word) (fun group => group.kind.varKind)
    ClassVariables.names
    (by rintro ⟨_ | _, _⟩ token kind <;> simp [Goal.take?, ClassKind.word, ClassKind.varKind, kind])
    (by rintro ⟨_ | _, _⟩ <;> simp [ClassKind.word]) (by rintro ⟨_ | _, _⟩ <;> rfl)
    closes groups spelt wellSpelt
  exact ⟨written, found, leads []⟩

/-- The local variables of a subroutine, up to its statements. -/
theorem localVariables_lead (level : outer ≠ []) (groups : List Names)
    (spelt : tokens.map Token.terminal =
      groups.flatMap fun names => .keyword .kwVar :: names.yield)
    (ends : ∀ token ∈ rest.head?, token.kind ≠ .keyword .kwVar)
    (wellSpelt : right → ∀ token ∈ tokens, token.WellSpelt) :
    ∃ written, Declaration.Matches right written
        (groups.flatMap (Names.declarations .locals)) ∧
      ∀ declarations, Leads limit [.localVariables] tokens rest
        ⟨numbering, generator.holding declarations outer⟩
        (Declaration.Accepts declarations written)
        (generator.opened (Declaration.count .locals (declarations ++ written)))
        ⟨numbering, generator.holding (declarations ++ written) outer⟩ := by
  have stays : ∀ token ∈ rest.head?, Goal.localVariables.take? numbering token = none := by
    intro token head
    simp [Goal.take?, ends token head]
  have begins (declarations : List Declaration) :
      Leads limit [.localVariables] [] rest
        ⟨numbering, generator.holding declarations outer⟩ True
        (generator.opened (Declaration.count .locals declarations))
        ⟨numbering, generator.holding declarations outer⟩ :=
    Leads.leave stays (fun _ => rfl) (generator.performs_beginBody limit declarations)
  exact declarations_lead (fun _ : Names => .kwVar) (fun _ => .locals) id
    (by intro names token kind; simp [Goal.take?, kind]) (by intro; decide)
    (by simp [VarKind.isClassLevel, level]) begins groups spelt wellSpelt

theorem TypeName.kind_mem_of_result {result : Option TypeName} {token : Token}
    (is : token.terminal = terminalOrVoid result) :
    token.kind ∈ .keyword .kwVoid :: Goal.typeKinds := by
  cases result with
  | none => exact List.mem_cons.2 (.inl (Token.kind_of_keyword is))
  | some type => exact List.mem_cons_of_mem _ (type.kind_mem is)

theorem TypeName.after_of_result {result : Option TypeName} {token : Token}
    (numbering : Numbering) (is : token.terminal = terminalOrVoid result) :
    numbering.after token = numbering := by
  cases result with
  | none => exact numbering.after_keyword is (by decide)
  | some type => exact type.after numbering is

/-- A subroutine behind the keyword of its kind. -/
theorem subroutine_leads {word : Token} (subroutine : Subroutine) (level : outer ≠ [])
    (new : generator.fresh = ⟨.empty, outer⟩)
    (spelt : (word :: tokens).map Token.terminal = subroutine.yield)
    (wellSpelt : right → ∀ token ∈ tokens, token.WellSpelt) :
    ∃ written, Declaration.Matches right written (subroutine.declarations generator.className) ∧
      ∀ begun, begun = (generator.begun subroutine.kind subroutine.name).holding written outer →
        Leads limit [.returnType subroutine.kind] tokens rest ⟨numbering, generator⟩
          (Declaration.Accepted written ∧ subroutine.body.Valid begun.environment.declared ∧
            subroutine.body.depth ≤ limit - generator.depth)
          (begun.opened (Declaration.count .locals written) ++
            (subroutine.body.code begun.environment numbering).map .instruction)
          ⟨subroutine.body.numbered numbering, begun⟩ := by
  obtain ⟨-, spelt⟩ := List.cons_eq_cons.1 spelt
  obtain ⟨result, tokens, rfl, isResult, spelt⟩ := List.map_eq_cons_iff.1 spelt
  obtain ⟨name, tokens, rfl, isName, spelt⟩ := List.map_eq_cons_iff.1 spelt
  obtain ⟨opening, tokens, rfl, isOpening, spelt⟩ := List.map_eq_cons_iff.1 spelt
  rw [List.append_cons] at spelt
  obtain ⟨listed, tokens, rfl, isListed, spelt⟩ := List.map_eq_append_iff.1 spelt
  obtain ⟨brace, tokens, rfl, isBrace, spelt⟩ := List.map_eq_cons_iff.1 spelt
  obtain ⟨held, tokens, rfl, isHeld, spelt⟩ := List.map_eq_append_iff.1 spelt
  obtain ⟨body, tokens, rfl, isBody, spelt⟩ := List.map_eq_append_iff.1 spelt
  obtain ⟨closing, rfl, isClosing⟩ := List.map_eq_singleton_iff.1 spelt
  obtain ⟨parameters, matchesParameters, parametersLead⟩ := parameters_lead level
    subroutine.parameters isListed fun holds token member => wellSpelt holds token (by simp [member])
  have ends : ∀ token ∈ (body ++ [closing] ++ rest).head?, token.kind ≠ .keyword .kwVar := by
    rw [List.append_assoc]
    exact Statements.head_append isBody isClosing (by decide)
  obtain ⟨locals, matchesLocals, localsLead⟩ := localVariables_lead level subroutine.locals isHeld
    ends fun holds token member => wellSpelt holds token (by simp [member])
  refine ⟨subroutine.kind.object generator.className ++ parameters ++ locals,
    ((Declaration.Matches.refl _).append matchesParameters).append matchesLocals, ?_⟩
  rintro begun rfl
  obtain ⟨kindName, nameIs⟩ := Token.kind_of_name isName
  have took : (Goal.returnType subroutine.kind).take? numbering result =
      some ⟨[], [.subroutineName subroutine.kind]⟩ := by
    rw [Goal.take?, if_pos (TypeName.kind_mem_of_result isResult)]
  have tookName : (Goal.subroutineName subroutine.kind).take? numbering name =
      some ⟨[.beginSubroutine subroutine.kind name],
        [.symbol .leftParen, .parameters, .symbol .leftBrace, .localVariables, .statements,
          .symbol .rightBrace]⟩ := by
    simp [Goal.take?, kindName]
  rw [← nameIs]
  refine (Leads.take _ took (TypeName.after_of_result numbering isResult) (.nil limit _)
    (Leads.take _ tookName (numbering.after_identifier kindName)
      (generator.performs_beginSubroutine limit subroutine.kind name level new)
      (Leads.cons (Leads.symbol isOpening _) (Leads.cons (parametersLead _)
        (Leads.cons (Leads.symbol isBrace _) (Leads.cons (localsLead _)
          (Leads.cons (subroutine.body.leads limit numbering _ isBody isClosing)
            (Leads.symbol isClosing _)))))))).congr ?_ ?_
  · simp only [true_and, and_true, and_assoc, Declaration.accepted_append,
      Declaration.accepted_object]
    rfl
  · simp only [List.nil_append, List.append_nil]
    rfl

theorem Subroutine.code_eq {subroutine : Subroutine} {declarations : List Declaration}
    {begun : Generator} (accepted : Declaration.Accepted declarations)
    (acceptedOwn : Declaration.Accepted (subroutine.declarations generator.className))
    (fields : generator.fields = Declaration.count .field declarations)
    (begins : begun = (generator.begun subroutine.kind subroutine.name).holding
      (subroutine.declarations generator.className) [.ofDeclarations declarations]) :
    (begun.opened (subroutine.localCount generator.className) ++
        (subroutine.body.code begun.environment .zero).map Event.instruction).filterMap
          Event.instruction? =
      subroutine.code generator.className declarations := by
  have opens : Generator.prologue subroutine.kind generator.fields =
      subroutine.opening (Declaration.count .field declarations) := by
    rw [fields, opening]
    cases subroutine.kind <;> rfl
  rw [begins, Generator.environment_holding _ acceptedOwn accepted, List.filterMap_append,
    Event.filterMap_instruction, Generator.opened, List.filterMap_cons_none rfl,
    Event.filterMap_instruction]
  exact congrArg₂ (· ++ ·) (congrArg (List.cons _) opens) rfl

/-- Subroutines one after the other, up to the brace behind them. -/
theorem subroutines_lead {closing : Token} {written declared : List Declaration}
    (limit : Nat) (rest : List Token) (isClosing : closing.terminal = .symbol .rightBrace)
    (found : Declaration.Matches right written declared) (subroutines : List Subroutine)
    (numbering : Numbering) (generator : Generator)
    (new : generator.fresh = ⟨.empty, [.ofDeclarations written]⟩)
    (spelt : tokens.map Token.terminal = subroutines.flatMap Subroutine.yield)
    (wellSpelt : right → ∀ token ∈ tokens, token.WellSpelt) :
    ∃ events there, there.generator.className = generator.className ∧
      there.generator.subroutines = generator.subroutines + subroutines.length ∧
      (right → Declaration.Accepted declared →
        (∀ subroutine ∈ subroutines, subroutine.Valid generator.className declared) →
        generator.fields = Declaration.count .field declared →
        events.filterMap Event.instruction? =
          subroutines.flatMap (Subroutine.code generator.className declared)) ∧
      Leads limit [.subroutines] tokens (closing :: rest) ⟨numbering, generator⟩
        (∀ subroutine ∈ subroutines, subroutine.Valid generator.className declared ∧
          subroutine.body.depth ≤ limit - generator.depth) events there := by
  induction subroutines generalizing tokens numbering generator with
  | nil =>
    rw [List.flatMap_nil, List.map_eq_nil_iff] at spelt
    subst spelt
    have stays : ∀ token ∈ (closing :: rest).head?,
        Goal.subroutines.take? numbering token = none := by
      intro token head
      obtain rfl := Option.mem_some_iff.1 head
      simp [Goal.take?, Token.kind_of_symbol isClosing]
    exact ⟨[], ⟨numbering, generator⟩, rfl, rfl, fun _ _ _ _ => rfl,
      (Leads.skip stays (fun _ => rfl) generator).congr (by simp) rfl⟩
  | cons subroutine subroutines ih =>
    obtain ⟨front, back, rfl, isFront, isBack⟩ := List.map_eq_append_iff.1 spelt
    obtain ⟨word, front, rfl, isWord, -⟩ := List.map_eq_cons_iff.1 isFront
    have kind := Token.kind_of_keyword isWord
    have took : Goal.subroutines.take? numbering word =
        some ⟨[], [.returnType subroutine.kind, .subroutines]⟩ := by
      cases which : subroutine.kind <;> simp [Goal.take?, kind, which, SubroutineKind.word]
    have counts : numbering.after word = .zero := by
      cases which : subroutine.kind <;> simp [Numbering.after, kind, which, SubroutineKind.word]
    obtain ⟨own, foundOwn, leads⟩ := subroutine_leads subroutine (List.cons_ne_nil _ _) new
      isFront fun holds token member => wellSpelt holds token (by simp [member])
    obtain ⟨events, there, className, counted, code, others⟩ := ih
      (subroutine.body.numbered .zero)
      ((generator.begun subroutine.kind subroutine.name).holding own [.ofDeclarations written])
      rfl isBack fun holds token member => wellSpelt holds token (by simp [member])
    refine ⟨_, there, className, ?_, ?_, (Leads.take _ took counts (.nil limit _)
      (Leads.cons (leads _ rfl) others)).congr ?_ rfl⟩
    · rw [counted, List.length_cons]
      exact Nat.add_right_comm _ _ _
    · intro holds accepted valid fields
      obtain rfl := found.same holds
      obtain rfl := foundOwn.same holds
      have validFirst := valid subroutine List.mem_cons_self
      rw [List.nil_append, List.filterMap_append, List.flatMap_cons]
      exact congrArg₂ (· ++ ·)
        (Subroutine.code_eq accepted validFirst.accepted fields rfl)
        (code holds accepted (fun other member => valid other (List.mem_cons_of_mem _ member))
          fields)
    · have declared : Environment.declared (Generator.environment
          ((generator.begun subroutine.kind subroutine.name).holding own
            [.ofDeclarations written])) =
          subroutine.declares generator.className declared := by
        funext name
        rw [Generator.declared_holding, (foundOwn.append found).any]
        rfl
      rw [true_and, List.forall_mem_cons, foundOwn.accepted, declared]
      refine and_congr ⟨?_, ?_⟩ .rfl
      · rintro ⟨accepted, valid, within⟩
        exact ⟨⟨accepted, valid⟩, within⟩
      · rintro ⟨⟨accepted, valid⟩, within⟩
        exact ⟨accepted, valid, within⟩

/-- Subroutines and the brace behind them begin with no keyword of anything else. -/
theorem subroutines_head {closing token : Token} (subroutines : List Subroutine)
    (spelt : tokens.map Token.terminal = subroutines.flatMap Subroutine.yield)
    (isClosing : closing.terminal = .symbol .rightBrace)
    (head : token ∈ (tokens ++ closing :: rest).head?) :
    token.kind ≠ .keyword .kwStatic ∧ token.kind ≠ .keyword .kwField := by
  cases subroutines with
  | nil =>
    rw [List.flatMap_nil, List.map_eq_nil_iff] at spelt
    subst spelt
    obtain rfl := Option.mem_some_iff.1 head
    simp [Token.kind_of_symbol isClosing]
  | cons subroutine subroutines =>
    obtain ⟨front, back, rfl, isFront, -⟩ := List.map_eq_append_iff.1 spelt
    obtain ⟨word, front, rfl, isWord, -⟩ := List.map_eq_cons_iff.1 isFront
    obtain rfl := Option.mem_some_iff.1 head
    rw [Token.kind_of_keyword isWord]
    cases subroutine.kind <;> decide

theorem ClassTree.depth_le {tree : ClassTree} {limit : Nat} :
    tree.depth ≤ limit ↔ ∀ subroutine ∈ tree.subroutines, subroutine.body.depth ≤ limit := by
  rw [depth]
  induction tree.subroutines with
  | nil => simp
  | cons subroutine subroutines ih =>
    rw [List.map_cons, List.foldr_cons, Nat.max_le, ih, List.forall_mem_cons]

/-- What comes of tokens that spell a class. -/
theorem ClassTree.leads (limit : Nat) (tree : ClassTree)
    (spelt : tokens.map Token.terminal = tree.yield)
    (wellSpelt : right → ∀ token ∈ tokens, token.WellSpelt) :
    ∃ events there, there.generator.className = tree.name ∧
      there.generator.subroutines = tree.subroutines.length ∧
      (right → tree.Valid → events.filterMap Event.instruction? = tree.code) ∧
      Leads limit Goal.wholeClass tokens [] ⟨.zero, .start⟩ (tree.Valid ∧ tree.depth ≤ limit)
        events there := by
  obtain ⟨word, tokens, rfl, isWord, spelt⟩ := List.map_eq_cons_iff.1 spelt
  obtain ⟨name, tokens, rfl, isName, spelt⟩ := List.map_eq_cons_iff.1 spelt
  obtain ⟨opening, tokens, rfl, isOpening, spelt⟩ := List.map_eq_cons_iff.1 spelt
  obtain ⟨held, tokens, rfl, isHeld, spelt⟩ := List.map_eq_append_iff.1 spelt
  obtain ⟨inner, tokens, rfl, isInner, spelt⟩ := List.map_eq_append_iff.1 spelt
  obtain ⟨closing, rfl, isClosing⟩ := List.map_eq_singleton_iff.1 spelt
  obtain ⟨kindName, nameIs⟩ := Token.kind_of_name isName
  have tookName : Goal.className.take? .zero name = some ⟨[.nameClass name.lexeme], []⟩ := by
    simp [Goal.take?, kindName]
  have named : Generator.Performs limit .start [.nameClass name.lexeme] True []
      (Generator.holding { Generator.start with className := tree.name } [] []) := by
    rw [← nameIs]
    exact .always rfl
  have ends : ∀ token ∈ (inner ++ [closing] ++ []).head?,
      token.kind ≠ .keyword .kwStatic ∧ token.kind ≠ .keyword .kwField := by
    intro token head
    rw [List.append_nil] at head
    exact subroutines_head tree.subroutines isInner isClosing head
  obtain ⟨written, found, variablesLead⟩ := classVariables_lead tree.classVariables isHeld ends
    fun holds token member => wellSpelt holds token (by simp [member])
  obtain ⟨events, there, className, counted, code, subroutinesLead⟩ := subroutines_lead limit []
    isClosing found tree.subroutines .zero
    (Generator.holding { Generator.start with
      className := tree.name, fields := Declaration.count .field written } written [])
    rfl isInner fun holds token member => wellSpelt holds token (by simp [member])
  refine ⟨_, ⟨there.numbering, there.generator⟩, className, ?_, ?_,
    (Leads.cons (Leads.exactly (Token.kind_of_keyword isWord)
      (Numbering.after_keyword _ isWord (by decide)) _)
      (Leads.cons (Leads.take _ tookName (Numbering.after_identifier _ kindName) named
          (Leads.nil limit _ _))
        (Leads.cons (Leads.symbol isOpening _) (Leads.cons variablesLead
          (Leads.cons subroutinesLead (Leads.symbol isClosing _)))))).congr ?_ rfl⟩
  · rw [counted]
    exact Nat.zero_add _
  · intro holds valid
    obtain rfl := found.same holds
    simp only [List.nil_append, List.append_nil, List.singleton_append]
    rw [List.filterMap_cons_none rfl]
    exact code holds valid.accepted valid.subroutines rfl
  · rw [Declaration.accepts_nil, found.accepted, depth_le]
    simp only [true_and, and_true]
    constructor
    · rintro ⟨accepted, each⟩
      exact ⟨⟨accepted, fun subroutine member => (each subroutine member).1⟩,
        fun subroutine member => (each subroutine member).2⟩
    · rintro ⟨⟨accepted, valid⟩, within⟩
      exact ⟨accepted, fun subroutine member => ⟨valid subroutine member, within subroutine member⟩⟩

end Jack
