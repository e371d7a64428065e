import Jack.Proofs.Diagnosis.Grounds

namespace Jack

namespace Names

/-- A type with names behind it, and a comma behind each of them. -/
def opening (type : TypeName) (names : List String) : List Terminal :=
  type.terminal :: names.flatMap fun name => [.name name, .symbol .comma]

/-- Names with a last one. -/
def ending (type : TypeName) (last : String) : List String → Names
  | [] => ⟨type, last, []⟩
  | first :: more => ⟨type, first, more ++ [last]⟩

theorem opening_append (type : TypeName) (names : List String) (last : String) :
    opening type (names ++ [last]) = opening type names ++ [.name last, .symbol .comma] := by
  simp [opening]

theorem yield_ending (type : TypeName) (names : List String) (last : String) :
    (ending type last names).yield =
      opening type names ++ [.name last, .symbol .semicolon] := by
  have commas (more : List String) :
      (more ++ [last]).flatMap (fun name => [Terminal.symbol .comma, .name name]) =
        .symbol .comma ::
          (more.flatMap (fun name => [.name name, .symbol .comma]) ++ [.name last]) := by
    induction more with
    | nil => rfl
    | cons name more ih => simp [ih]
  cases names with
  | nil => rfl
  | cons first more => simp [ending, yield, opening, commas]

theorem declarations_ending (kind : VarKind) (type : TypeName) (names : List String)
    (last : String) : (ending type last names).declarations kind =
      (names ++ [last]).map fun name => ⟨kind, type.text, name⟩ := by
  cases names <;> rfl

end Names

/-- Parameters with a comma behind each of them. -/
def Parameter.opening (parameters : List Parameter) : List Terminal :=
  parameters.flatMap fun parameter => parameter.yield ++ [.symbol .comma]

theorem Parameter.yieldAll_append (parameters : List Parameter) (last : Parameter) :
    yieldAll (parameters ++ [last]) = opening parameters ++ last.yield := by
  have commas (more : List Parameter) :
      (more ++ [last]).flatMap (fun parameter => Terminal.symbol .comma :: parameter.yield) =
        .symbol .comma :: (opening more ++ last.yield) := by
    induction more with
    | nil => simp [opening]
    | cons parameter more ih => simp [opening, ih]
  cases parameters with
  | nil => simp [yieldAll, opening]
  | cons first more => simp [yieldAll, opening, commas]

/-- What was taken of variables of one kind and one type before a goal, and what it declares. -/
inductive Naming (kind : VarKind) : Goal → List Terminal → List Declaration → Prop
  | type : Naming kind (.declaration kind) [] []
  | name (type : TypeName) (names : List String) :
      Naming kind (.variable kind type.text) (Names.opening type names)
        (names.map fun name => ⟨kind, type.text, name⟩)
  | more (type : TypeName) (names : List String) (last : String) :
      Naming kind (.moreVariables kind type.text) (Names.opening type names ++ [.name last])
        ((names ++ [last]).map fun name => ⟨kind, type.text, name⟩)

/-- What was taken of parameters in front of a goal. -/
inductive Listing : Goal → List Terminal → List Parameter → Prop
  | first : Listing .parameters [] []
  | type (parameters : List Parameter) :
      Listing .parameterType (Parameter.opening parameters) parameters
  | name (parameters : List Parameter) (type : TypeName) :
      Listing (.parameterName type.text) (Parameter.opening parameters ++ [type.terminal])
        parameters
  | more (parameters : List Parameter) (last : Parameter) :
      Listing .moreParameters (Parameter.opening parameters ++ last.yield) (parameters ++ [last])

section

variable {kind : VarKind} {goal : Goal} {part : List Terminal} {news : List Declaration}
  {parameters : List Parameter} {numbering : Numbering} {token : Token} {step : Goal.Step}

theorem exists_typeName (member : token.kind ∈ Goal.typeKinds) (wellSpelt : token.WellSpelt) :
    ∃ type : TypeName, token.terminal = type.terminal ∧ token.lexeme = type.text := by
  obtain ⟨type, isType⟩ := Goal.exists_type member
  exact ⟨type, isType, type.lexeme_eq isType wellSpelt⟩

theorem exists_result (member : token.kind ∈ .keyword .kwVoid :: Goal.typeKinds) :
    ∃ result, token.terminal = TypeName.terminalOrVoid result := by
  rcases List.mem_cons.1 member with is | member
  · exact ⟨none, Token.terminal_of_keyword is⟩
  · obtain ⟨type, isType⟩ := Goal.exists_type member
    exact ⟨some type, isType⟩

/-- A token goes on with the names, declares one more, or ends them. -/
theorem Naming.take (naming : Naming kind goal part news) (wellSpelt : token.WellSpelt)
    (took : goal.take? numbering token = some step) :
    (∃ next, step = ⟨[], [next]⟩ ∧ Naming kind next (part ++ [token.terminal]) news) ∨
    (∃ type next names, step = ⟨[.declare kind type token], [next]⟩ ∧
      token.kind = .identifier ∧
      Naming kind next (part ++ [token.terminal]) (news ++ [⟨kind, type, token.lexeme⟩]) ∧
      Names.yield names = part ++ [.name token.lexeme, .symbol .semicolon] ∧
      names.declarations kind = news ++ [⟨kind, type, token.lexeme⟩]) ∨
    ∃ names, step = ⟨[], []⟩ ∧ Names.yield names = part ++ [token.terminal] ∧
      names.declarations kind = news := by
  cases naming with
  | type =>
    obtain ⟨member, rfl⟩ := Goal.eq_of_takeIf took
    obtain ⟨type, isType, lexeme⟩ := exists_typeName member wellSpelt
    rw [isType, lexeme]
    exact .inl ⟨_, rfl, .name type []⟩
  | name type names =>
    obtain ⟨isName, rfl⟩ := Goal.eq_of_takeIf took
    have more := @Naming.more kind type names token.lexeme
    rw [List.map_append] at more
    rw [Token.terminal_of_identifier isName]
    refine .inr (.inl ⟨_, _, Names.ending type token.lexeme names, rfl, isName, more, ?_, ?_⟩)
    · exact Names.yield_ending type names token.lexeme
    · rw [Names.declarations_ending, List.map_append]
      rfl
  | more type names last =>
    simp only [Goal.take?] at took
    split at took <;> rename_i is <;> simp only [Option.some.injEq, reduceCtorEq] at took <;>
      subst took
    · have next := @Naming.name kind type (names ++ [last])
      rw [Names.opening_append] at next
      rw [Token.terminal_of_symbol is]
      exact .inl ⟨_, rfl, by simpa using next⟩
    · rw [Token.terminal_of_symbol is]
      refine .inr (.inr ⟨Names.ending type last names, rfl, ?_, ?_⟩)
      · rw [Names.yield_ending, List.append_assoc]
        rfl
      · exact Names.declarations_ending kind type names last

theorem Naming.not_pass {line : Nat} (naming : Naming kind goal part news) :
    goal.otherwise line ≠ .ok step := by
  intro moved
  cases naming <;> cases moved

/-- A token goes on with the parameters, declares one more, or ends them. -/
theorem Listing.take (listing : Listing goal part parameters) (wellSpelt : token.WellSpelt)
    (took : goal.take? numbering token = some step) :
    (∃ next, step = ⟨[], [next]⟩ ∧ Listing next (part ++ [token.terminal]) parameters) ∨
    (∃ parameter next, step = ⟨[.declare .argument parameter.type.text token], [next]⟩ ∧
      token.kind = .identifier ∧ parameter.name = token.lexeme ∧
      Listing next (part ++ [token.terminal]) (parameters ++ [parameter]) ∧
      Parameter.yieldAll (parameters ++ [parameter]) = part ++ [.name token.lexeme]) ∨
    step = ⟨[], []⟩ ∧ token.terminal = .symbol .rightParen ∧
      Parameter.yieldAll parameters = part := by
  have types (parameters : List Parameter) (member : token.kind ∈ Goal.typeKinds) :
      Listing (.parameterName token.lexeme) (Parameter.opening parameters ++ [token.terminal])
        parameters := by
    obtain ⟨type, isType, lexeme⟩ := exists_typeName member wellSpelt
    rw [isType, lexeme]
    exact .name parameters type
  cases listing with
  | first =>
    simp only [Goal.take?] at took
    split at took
    · rename_i is
      obtain rfl := Option.some.inj took
      exact .inr (.inr ⟨rfl, Token.terminal_of_symbol is, rfl⟩)
    · obtain ⟨member, rfl⟩ := Goal.eq_of_takeIf took
      exact .inl ⟨_, rfl, types [] member⟩
  | type parameters =>
    obtain ⟨member, rfl⟩ := Goal.eq_of_takeIf took
    exact .inl ⟨_, rfl, types parameters member⟩
  | name parameters type =>
    obtain ⟨isName, rfl⟩ := Goal.eq_of_takeIf took
    rw [Token.terminal_of_identifier isName]
    have more := Listing.more parameters ⟨type, token.lexeme⟩
    have spelt := Parameter.yieldAll_append parameters ⟨type, token.lexeme⟩
    have whole : Parameter.opening parameters ++ [type.terminal] ++ [.name token.lexeme] =
        Parameter.opening parameters ++ (⟨type, token.lexeme⟩ : Parameter).yield :=
      List.append_assoc ..
    rw [← whole] at more spelt
    exact .inr (.inl ⟨⟨type, token.lexeme⟩, _, rfl, isName, rfl, more, spelt⟩)
  | more parameters last =>
    simp only [Goal.take?] at took
    split at took <;> rename_i is <;> simp only [Option.some.injEq, reduceCtorEq] at took <;>
      subst took
    · have next := Listing.type (parameters ++ [last])
      rw [Token.terminal_of_symbol is]
      exact .inl ⟨_, rfl, by simpa [Parameter.opening] using next⟩
    · exact .inr (.inr ⟨rfl, Token.terminal_of_symbol is, Parameter.yieldAll_append ..⟩)

theorem Listing.not_pass {line : Nat} (listing : Listing goal part parameters) :
    goal.otherwise line ≠ .ok step := by
  intro moved
  cases listing <;> cases moved

end

end Jack
