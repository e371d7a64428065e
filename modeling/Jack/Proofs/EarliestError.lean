import Jack.Proofs.Prefix.Viable

namespace Jack

/-- The kind of the tokens that stand for a terminal. -/
def Terminal.kind : Terminal → Token.Kind
  | keyword word => .keyword word
  | symbol mark => .symbol mark
  | name _ => .identifier
  | integer _ => .integer
  | string _ => .string

@[simp] theorem Token.kind_terminal (token : Token) : token.terminal.kind = token.kind := by
  unfold terminal
  split <;> simp [Terminal.kind, *]

theorem Token.map_kind_terminal (tokens : List Token) :
    (tokens.map terminal).map Terminal.kind = tokens.map kind := by
  simp [Function.comp_def]

/-- Kinds of tokens that a class is written with, from its first token to its last. -/
def IsClass (kinds : List Token.Kind) : Prop :=
  ∃ tree : ClassTree, tree.yield.map Terminal.kind = kinds

/-- An error reports the token at a place, or the end of the last token if the place is behind all
tokens. Without any token it reports the beginning of the text. -/
def SyntaxError.Reports (error : SyntaxError) (tokens : List Token) (place : Nat) : Prop :=
  match tokens[place]?, tokens.getLast? with
  | some token, _ =>
    error.line = token.line ∧ error.column = token.startColumn ∧ error.found = some token.lexeme
  | none, some last =>
    place = tokens.length ∧ error.line = last.line ∧ error.column = last.endColumn ∧
      error.found = none
  | none, none => place = 0 ∧ error.line = 1 ∧ error.column = 1 ∧ error.found = none

theorem TokenStream.reports_unexpected (taken rest : List Token) (expected : String) :
    ((⟨taken, rest⟩ : TokenStream).unexpected expected).Reports (taken.reverse ++ rest)
      taken.length := by
  have place : (taken.reverse ++ rest)[taken.length]? = rest.head? := by
    rw [← List.length_reverse, List.getElem?_append_right (Nat.le_refl _), Nat.sub_self,
      List.head?_eq_getElem?]
  unfold SyntaxError.Reports
  rw [place]
  cases rest with
  | cons token rest => exact ⟨rfl, rfl, rfl⟩
  | nil =>
    rw [List.append_nil, List.getLast?_reverse, List.length_reverse]
    cases taken with
    | nil => exact ⟨rfl, rfl, rfl, rfl⟩
    | cons last taken => exact ⟨rfl, rfl, rfl, rfl⟩

theorem TokenStream.expected_unexpected (stream : TokenStream) (expected : String) :
    (stream.unexpected expected).expected = expected := by
  unfold unexpected
  split <;> rfl

namespace Generator

/-- What carrying out actions refuses is not a token. -/
theorem perform_ne_unexpected (limit : Nat) (generator : Generator) (action : Action)
    (error : SyntaxError) : (generator.perform limit action).2 ≠ .error (.unexpected error) := by
  cases action with
  | declare kind type name =>
    simp only [perform, declare]
    split <;> simp [refuse]
  | beginSubroutine kind name =>
    simp only [perform, beginSubroutine, declare]
    repeat' split
    all_goals simp [refuse]
  | resolve | load | store =>
    simp only [perform, withVariable]
    split <;> simp [emit, refuse]
  | integer constant =>
    simp only [perform]
    repeat' split
    all_goals simp [emit, refuse]
  | string constant =>
    simp only [perform, string]
    repeat' split
    all_goals simp [refuse]
  | nest line | argument call count =>
    simp only [perform]
    split <;> simp [emit, refuse]
  | _ => simp [perform, emit, beginBody]

theorem performAll_ne_unexpected (limit : Nat) (generator : Generator) (actions : List Action)
    (error : SyntaxError) :
    (generator.performAll limit actions).2 ≠ .error (.unexpected error) := by
  induction actions generalizing generator with
  | nil => simp [performAll, performOnto]
  | cons action actions ih =>
    have first := generator.perform_ne_unexpected limit action error
    rw [performAll_cons]
    rcases performed : generator.perform limit action with ⟨events, refused | later⟩
    · rw [performed] at first
      simpa using first
    · exact ih later

end Generator

/-- A class that is refused for a token is refused where recognition ended. -/
theorem ClassCode.run_of_unexpected {limit : Nat} {tokens : List Token} {error : SyntaxError}
    (refused : (ofTokens limit tokens).result = .error (.unexpected error)) :
    (Recognizer.ofTokens tokens).run.2 = some error := by
  have performed := Generator.performAll_ne_unexpected limit .start
    (Recognizer.ofTokens tokens).run.1 error
  simp only [ofTokens] at refused
  split at refused
  · cases refused
  · cases refused
    assumption
  · rename_i events failed outcome
    rw [outcome] at performed
    exact absurd refused performed

theorem Compilation.refused_of_ofCode {code : ClassCode} {sink : Sink} {error : CompileError}
    (refused : (ofCode code sink).result = .error (.refused error)) :
    code.result = .error error := by
  simp only [ofCode] at refused
  split at refused
  · cases refused
  · cases refused
    assumption
  · split at refused <;> cases refused

namespace Recognizer

theorem exists_unexpected {here : Recognizer} {error : SyntaxError}
    (stopped : here.step = .error (some error)) :
    ∃ expected, error = here.stream.unexpected expected := by
  obtain ⟨_ | ⟨goal, goals⟩, stream, numbering⟩ := here
  · simp only [step] at stopped
    split at stopped <;> cases stopped
    exact ⟨_, rfl⟩
  · simp only [step] at stopped
    split at stopped
    · cases stopped
    · split at stopped <;> cases stopped
      exact ⟨_, rfl⟩

/-- Where recognition stops, no class goes on with a token of the kind that stands next, and none
ends there if no token does. -/
theorem Reaches.not_isClass {tokens first : List Token} {last : Recognizer} {actions : List Action}
    {error : SyntaxError} {kinds : List Token.Kind} (reach : Reaches (ofTokens tokens) actions last)
    (stopped : last.step = .error (some error)) (whole : tokens = first ++ last.stream.rest)
    (next : kinds.head? = last.stream.rest.head?.map Token.kind) :
    ¬IsClass (first.map Token.kind ++ kinds) := by
  rintro ⟨tree, isTree⟩
  have spelt : (tree.yield.map Terminal.token).map Token.kind = first.map Token.kind ++ kinds := by
    rw [← isTree, ← Token.map_kind_terminal, tree.speltBy_tokens.yield]
  obtain ⟨first', rest', split, isFirst, isRest⟩ := List.map_eq_append_iff.1 spelt
  -- The tokens of the tree would be refused at the same place, but they are recognised.
  have heads : last.stream.rest.head?.map Token.kind = rest'.head?.map Token.kind := by
    rw [← next, ← isRest, List.head?_map]
  have goals : Goal.shapes (ofTokens tokens).goals =
      Goal.shapes (ofTokens (tree.yield.map Terminal.token)).goals := rfl
  obtain ⟨actions', last', reach', alike⟩ := reach.mirrored goals whole split isFirst.symm heads
  obtain ⟨error', stopped'⟩ := alike.stops stopped
  obtain ⟨_, _, _, run, -⟩ := tree.recognized False 0 tree.speltBy_tokens.yield False.elim
  rw [reach'.run stopped'] at run
  cases run

end Recognizer

/-- Whenever a token is refused, the tokens in front of it can be continued to a class, and with
the token itself no class begins. If the tokens end too early, they are no class. -/
theorem Compilation.earliest_error {limit : Nat} {tokens : List Token} {sink : Sink}
    {error : SyntaxError}
    (refused : (ofTokens limit tokens sink).result = .error (.refused (.unexpected error))) :
    ∃ place, error.Reports tokens place ∧
      (∃ more, IsClass ((tokens.take place).map Token.kind ++ more)) ∧
      ((place < tokens.length ∧
          ∀ more, ¬IsClass ((tokens.take (place + 1)).map Token.kind ++ more)) ∨
        (place = tokens.length ∧ ¬IsClass (tokens.map Token.kind))) := by
  have run := ClassCode.run_of_unexpected (refused_of_ofCode refused)
  obtain ⟨last, reach, stopped⟩ := Recognizer.reaches_stop (Recognizer.ofTokens tokens)
  rw [run] at stopped
  obtain ⟨first, whole, taken⟩ := reach.taken
  obtain ⟨more, tree, isTree⟩ := reach.exists_classTree whole
  obtain ⟨expected, rfl⟩ := Recognizer.exists_unexpected stopped
  have refuses (kinds : List Token.Kind)
      (next : kinds.head? = last.stream.rest.head?.map Token.kind) :
      ¬IsClass (first.map Token.kind ++ kinds) :=
    reach.not_isClass stopped whole next
  obtain ⟨goals, ⟨before, rest⟩, numbering⟩ := last
  obtain rfl : before = first.reverse := taken.trans (List.append_nil _)
  obtain rfl : tokens = first ++ rest := whole
  have place := TokenStream.reports_unexpected first.reverse rest expected
  rw [List.reverse_reverse, List.length_reverse] at place
  refine ⟨first.length, place, ⟨more.map Token.kind, tree, ?_⟩, ?_⟩
  · rw [← isTree, Token.map_kind_terminal, List.take_left, List.map_append]
  · cases rest with
    | nil =>
      have ended := refuses [] rfl
      rw [List.append_nil] at ended
      rw [List.append_nil]
      exact .inr ⟨rfl, ended⟩
    | cons token rest =>
      refine .inl ⟨by simp, fun more => ?_⟩
      have refused := refuses (token.kind :: more) rfl
      have here : (first ++ token :: rest).take (first.length + 1) = first ++ [token] := by
        rw [List.take_length_add_append]
        rfl
      rw [here, List.map_append, List.append_assoc]
      exact refused

/-- A call that breaks off behind its name. -/
def unfinishedCall : List Token :=
  Finding.tokens (Finding.ofSource "class Main {
 function void main() {
  do run;
 }
}")

theorem Compilation.earliest_error_unfinishedCall :
    (ofTokens 2 unfinishedCall .unlimited).result =
        .error (.refused (.unexpected ⟨3, 9, some ";", "'(' or '.'"⟩)) ∧
      ∃ place, SyntaxError.Reports ⟨3, 9, some ";", "'(' or '.'"⟩ unfinishedCall place ∧
        (∃ more, IsClass ((unfinishedCall.take place).map Token.kind ++ more)) ∧
        ((place < unfinishedCall.length ∧
            ∀ more, ¬IsClass ((unfinishedCall.take (place + 1)).map Token.kind ++ more)) ∨
          (place = unfinishedCall.length ∧ ¬IsClass (unfinishedCall.map Token.kind))) := by
  have refused : (ofTokens 2 unfinishedCall .unlimited).result =
      .error (.refused (.unexpected ⟨3, 9, some ";", "'(' or '.'"⟩)) := by
    decide +kernel
  exact ⟨refused, earliest_error refused⟩

end Jack
