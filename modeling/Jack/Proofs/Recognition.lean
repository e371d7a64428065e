import Jack.Grammar.Recognizer
import Jack.Proofs.Outcome

namespace Jack

namespace Recognizer

/-- Any number of steps, with all that they ask for in order. -/
inductive Reaches : Recognizer → List Action → Recognizer → Prop
  | refl (here : Recognizer) : Reaches here [] here
  | step {here next last : Recognizer} {first rest : List Action} :
      here.step = .ok (first, next) → Reaches next rest last → Reaches here (first ++ rest) last

theorem Reaches.trans {here middle last : Recognizer} {first rest : List Action}
    (front : Reaches here first middle) (back : Reaches middle rest last) :
    Reaches here (first ++ rest) last := by
  induction front with
  | refl => exact back
  | step moved _ ih =>
    rw [List.append_assoc]
    exact .step moved (ih back)

theorem Reaches.run {here last : Recognizer} {actions : List Action} {error : Option SyntaxError}
    (reach : Reaches here actions last) (stopped : last.step = .error error) :
    here.run = (actions, error) := by
  induction reach with
  | refl => exact run_of_stop stopped
  | step moved _ ih => rw [run_of_step moved, ih stopped]

/-- Every run ends where no step is left. -/
theorem reaches_stop (here : Recognizer) :
    ∃ last, Reaches here here.run.1 last ∧ last.step = .error here.run.2 := by
  induction size : here.measure using Nat.strongRecOn generalizing here with
  | ind n ih =>
    cases next : here.step with
    | error error =>
      rw [run_of_stop next]
      exact ⟨here, .refl here, next⟩
    | ok moved =>
      obtain ⟨last, reach, stopped⟩ := ih _ (size ▸ measure_step next) moved.2 rfl
      rw [run_of_step next]
      exact ⟨last, .step next reach, stopped⟩

/-- All goals are met in one way at most. -/
theorem Reaches.actions_unique {here last other : Recognizer} {actions others : List Action}
    (reach : Reaches here actions last) (ends : last.goals = [])
    (reachOther : Reaches here others other) (endsOther : other.goals = []) :
    actions = others := by
  obtain ⟨goals, stream, numbering⟩ := last
  obtain ⟨goals', stream', numbering'⟩ := other
  subst ends endsOther
  exact congrArg Prod.fst ((reach.run rfl).symm.trans (reachOther.run rfl))

theorem step_eq_error_none {here : Recognizer} :
    here.step = .error none ↔ here.goals = [] ∧ here.stream.rest = [] := by
  obtain ⟨goals, ⟨taken, rest⟩, numbering⟩ := here
  cases goals with
  | nil => cases rest <;> simp [step, TokenStream.atEnd]
  | cons goal goals =>
    simp only [step, reduceCtorEq, false_and, iff_false]
    split
    · simp
    · split <;> simp

variable {goal : Goal} {goals : List Goal} {token : Token} {taken rest : List Token}
  {numbering : Numbering}

theorem step_take (step : Goal.Step) (took : goal.take? numbering token = some step) :
    (⟨goal :: goals, ⟨taken, token :: rest⟩, numbering⟩ : Recognizer).step =
      .ok (step.actions,
        ⟨step.goals ++ goals, ⟨token :: taken, rest⟩, numbering.after token⟩) := by
  simp [Recognizer.step, take?, TokenStream.next?, took]

theorem step_pass (step : Goal.Step)
    (stays : ∀ token ∈ rest.head?, goal.take? numbering token = none)
    (moves : goal.otherwise (TokenStream.line ⟨taken, rest⟩) = .ok step) :
    (⟨goal :: goals, ⟨taken, rest⟩, numbering⟩ : Recognizer).step =
      .ok (step.actions, ⟨step.goals ++ goals, ⟨taken, rest⟩, numbering⟩) := by
  cases rest with
  | nil => simp [Recognizer.step, take?, TokenStream.next?, moves]
  | cons token rest =>
    simp [Recognizer.step, take?, TokenStream.next?, stays token rfl, moves]

/-- A step takes the next token, or the first goal does without it. -/
theorem step_cases {here next : Recognizer} {actions : List Action}
    (moved : here.step = .ok (actions, next)) :
    ∃ goal goals taken rest numbering step, actions = step.actions ∧
      ((∃ token, here = ⟨goal :: goals, ⟨taken, token :: rest⟩, numbering⟩ ∧
          goal.take? numbering token = some step ∧
          next = ⟨step.goals ++ goals, ⟨token :: taken, rest⟩, numbering.after token⟩) ∨
        (∃ line, here = ⟨goal :: goals, ⟨taken, rest⟩, numbering⟩ ∧
          (∀ token ∈ rest.head?, goal.take? numbering token = none) ∧
          goal.otherwise line = .ok step ∧
          next = ⟨step.goals ++ goals, ⟨taken, rest⟩, numbering⟩)) := by
  obtain ⟨_ | ⟨goal, goals⟩, ⟨taken, rest⟩, numbering⟩ := here
  · simp [step] at moved
  cases took : take? goal goals ⟨taken, rest⟩ numbering with
  | some found =>
    simp only [step, took, Except.ok.injEq] at moved
    subst moved
    rcases rest with _ | ⟨token, rest⟩
    · simp [take?, TokenStream.next?] at took
    · obtain ⟨step, takes, same⟩ := Option.map_eq_some_iff.1 took
      obtain ⟨rfl, rfl⟩ := Prod.mk.inj same
      exact ⟨goal, goals, taken, rest, numbering, step, rfl, .inl ⟨token, rfl, takes, rfl⟩⟩
  | none =>
    have stays : ∀ token ∈ rest.head?, goal.take? numbering token = none := by
      intro token head
      obtain ⟨rest, rfl⟩ := List.head?_eq_some_iff.1 head
      exact Option.map_eq_none_iff.1 took
    cases moves : goal.otherwise (TokenStream.line ⟨taken, rest⟩) with
    | error expected => simp [step, took, moves] at moved
    | ok step =>
      simp only [Recognizer.step, took, moves, Except.ok.injEq, Prod.mk.injEq] at moved
      obtain ⟨rfl, rfl⟩ := moved
      exact ⟨goal, goals, taken, rest, numbering, step, rfl, .inr ⟨_, rfl, stays, moves, rfl⟩⟩

end Recognizer

namespace Token

variable {token : Token}

theorem kind_of_keyword {word : Keyword} (is : token.terminal = .keyword word) :
    token.kind = .keyword word := by
  unfold terminal at is
  split at is <;> simp_all

theorem kind_of_symbol {mark : Symbol} (is : token.terminal = .symbol mark) :
    token.kind = .symbol mark := by
  unfold terminal at is
  split at is <;> simp_all

theorem terminal_of_symbol {mark : Symbol} (kind : token.kind = .symbol mark) :
    token.terminal = .symbol mark := by
  rw [terminal, kind]

theorem kind_of_name {text : String} (is : token.terminal = .name text) :
    token.kind = .identifier ∧ token.lexeme = text := by
  unfold terminal at is
  split at is <;> simp_all

theorem kind_of_integer {value : Option Nat} (is : token.terminal = .integer value) :
    token.kind = .integer ∧ token.literal.bind Literal.number? = value := by
  unfold terminal at is
  split at is <;> simp_all

theorem kind_of_string {text : String} (is : token.terminal = .string text) :
    token.kind = .string ∧ (token.literal.bind Literal.text?).getD "" = text := by
  unfold terminal at is
  split at is <;> simp_all

end Token

theorem Numbering.after_symbol {token : Token} {mark : Symbol} (numbering : Numbering)
    (is : token.kind = .symbol mark) : numbering.after token = numbering := by
  simp [after, is]

theorem Numbering.after_identifier {token : Token} (numbering : Numbering)
    (is : token.kind = .identifier) : numbering.after token = numbering := by
  simp [after, is]

/-- The keywords of choices, loops and subroutines are counted, and no others. -/
theorem Numbering.after_keyword {token : Token} {word : Keyword} (numbering : Numbering)
    (is : token.terminal = .keyword word)
    (other : word ∉ [Keyword.kwIf, .kwWhile, .kwConstructor, .kwFunction, .kwMethod]) :
    numbering.after token = numbering := by
  have kind := Token.kind_of_keyword is
  cases word <;> simp_all [after]

/-- What carries over from one goal to the next. -/
structure Stage where
  numbering : Numbering
  generator : Generator

/-- Goals take tokens, whatever was taken before and whatever goals come later, as long as the
rest stands behind. Their actions are carried out exactly under a condition, and then they emit
events. -/
def Leads (limit : Nat) (goals : List Goal) (tokens rest : List Token) (here : Stage) (fits : Prop)
    (events : List Event) (there : Stage) : Prop :=
  ∀ taken later, ∃ actions,
    Recognizer.Reaches ⟨goals ++ later, ⟨taken, tokens ++ rest⟩, here.numbering⟩ actions
      ⟨later, ⟨tokens.reverse ++ taken, rest⟩, there.numbering⟩ ∧
    Generator.Performs limit here.generator actions fits events there.generator

namespace Leads

variable {limit : Nat} {goal : Goal} {goals others : List Goal} {token : Token}
  {tokens first last rest : List Token} {here middle there : Stage} {numbering next : Numbering}
  {generator later : Generator} {fits firstFits lastFits : Prop}
  {events firstEvents lastEvents : List Event} {actions : List Action}

theorem congr {same : Prop} {equal : List Event}
    (leads : Leads limit goals tokens rest here fits events there) (iff : fits ↔ same)
    (eq : events = equal) : Leads limit goals tokens rest here same equal there := by
  intro taken later
  obtain ⟨actions, reach, performs⟩ := leads taken later
  exact ⟨actions, reach, performs.congr iff eq⟩

theorem nil (limit : Nat) (rest : List Token) (here : Stage) :
    Leads limit [] [] rest here True [] here :=
  fun _ _ => ⟨[], .refl _, .nil limit here.generator⟩

theorem append (front : Leads limit goals first (last ++ rest) here firstFits firstEvents middle)
    (back : Leads limit others last rest middle lastFits lastEvents there) :
    Leads limit (goals ++ others) (first ++ last) rest here (firstFits ∧ lastFits)
      (firstEvents ++ lastEvents) there := by
  intro taken later
  obtain ⟨actions, reach, performs⟩ := front taken (others ++ later)
  obtain ⟨actions', reach', performs'⟩ := back (first.reverse ++ taken) later
  refine ⟨actions ++ actions', ?_, performs.append performs'⟩
  rw [List.append_assoc, List.append_assoc, List.reverse_append, List.append_assoc]
  exact reach.trans reach'

/-- Goals that take no token come before goals that take some. -/
theorem after (front : Leads limit goals [] (tokens ++ rest) here firstFits firstEvents middle)
    (back : Leads limit others tokens rest middle lastFits lastEvents there) :
    Leads limit (goals ++ others) tokens rest here (firstFits ∧ lastFits)
      (firstEvents ++ lastEvents) there :=
  append front back

theorem before (front : Leads limit goals tokens rest here firstFits firstEvents middle)
    (back : Leads limit others [] rest middle lastFits lastEvents there) :
    Leads limit (goals ++ others) tokens rest here (firstFits ∧ lastFits)
      (firstEvents ++ lastEvents) there := by
  have both := append front back
  rwa [List.append_nil] at both

theorem cons (front : Leads limit [goal] first (last ++ rest) here firstFits firstEvents middle)
    (back : Leads limit goals last rest middle lastFits lastEvents there) :
    Leads limit (goal :: goals) (first ++ last) rest here (firstFits ∧ lastFits)
      (firstEvents ++ lastEvents) there :=
  append front back

/-- The first goal takes the next token, and the goals that it leaves behind do the rest. -/
theorem take (step : Goal.Step) (took : goal.take? numbering token = some step)
    (counts : numbering.after token = next)
    (performs : Generator.Performs limit generator step.actions firstFits firstEvents later)
    (back : Leads limit step.goals tokens rest ⟨next, later⟩ lastFits lastEvents there) :
    Leads limit [goal] (token :: tokens) rest ⟨numbering, generator⟩ (firstFits ∧ lastFits)
      (firstEvents ++ lastEvents) there := by
  subst counts
  intro taken goals
  obtain ⟨actions, reach, performs'⟩ := back (token :: taken) goals
  refine ⟨step.actions ++ actions, .step (Recognizer.step_take step took) ?_, performs.append performs'⟩
  rw [List.reverse_cons, List.append_assoc]
  exact reach

/-- The first goal does without the next token. -/
theorem pass (step : Goal.Step)
    (stays : ∀ token ∈ (tokens ++ rest).head?, goal.take? numbering token = none)
    (moves : ∀ line, goal.otherwise line = .ok step)
    (performs : Generator.Performs limit generator step.actions firstFits firstEvents later)
    (back : Leads limit step.goals tokens rest ⟨numbering, later⟩ lastFits lastEvents there) :
    Leads limit [goal] tokens rest ⟨numbering, generator⟩ (firstFits ∧ lastFits)
      (firstEvents ++ lastEvents) there := by
  intro taken goals
  obtain ⟨actions, reach, performs'⟩ := back taken goals
  exact ⟨step.actions ++ actions, .step (Recognizer.step_pass step stays (moves _)) reach,
    performs.append performs'⟩

/-- The first goal does without any token. -/
theorem leave (stays : ∀ token ∈ rest.head?, goal.take? numbering token = none)
    (moves : ∀ line, goal.otherwise line = .ok ⟨actions, []⟩)
    (performs : Generator.Performs limit generator actions fits events later) :
    Leads limit [goal] [] rest ⟨numbering, generator⟩ fits events ⟨numbering, later⟩ := by
  intro taken goals
  exact ⟨actions ++ [], .step (Recognizer.step_pass ⟨actions, []⟩ stays (moves _)) (.refl _),
    (List.append_nil actions).symm ▸ performs⟩

/-- A goal that needs nothing may come to nothing. -/
theorem skip (stays : ∀ token ∈ rest.head?, goal.take? numbering token = none)
    (moves : ∀ line, goal.otherwise line = .ok ⟨[], []⟩) (generator : Generator) :
    Leads limit [goal] [] rest ⟨numbering, generator⟩ True [] ⟨numbering, generator⟩ :=
  leave stays moves (.nil limit generator)

theorem exactly {kind : Token.Kind} (same : token.kind = kind)
    (counts : numbering.after token = next) (generator : Generator) :
    Leads limit [.token kind] [token] rest ⟨numbering, generator⟩ True [] ⟨next, generator⟩ :=
  (take ⟨[], []⟩ (by simp [Goal.take?, same]) counts (.nil limit generator)
    (nil limit rest _)).congr (and_self_iff.trans .rfl) rfl

theorem symbol {mark : Symbol} (is : token.terminal = .symbol mark) (generator : Generator) :
    Leads limit [.symbol mark] [token] rest ⟨numbering, generator⟩ True []
      ⟨numbering, generator⟩ :=
  exactly (Token.kind_of_symbol is) (numbering.after_symbol (Token.kind_of_symbol is)) generator

theorem perform (performs : Generator.Performs limit generator actions fits events later) :
    Leads limit [.perform actions] [] rest ⟨numbering, generator⟩ fits events
      ⟨numbering, later⟩ :=
  leave (fun _ _ => rfl) (fun _ => rfl) performs

theorem emit (code : List Instruction) :
    Leads limit [.perform (code.map .emit)] [] rest ⟨numbering, generator⟩ True
      (code.map .instruction) ⟨numbering, generator⟩ :=
  perform (generator.emits_emit limit code)

/-- The next token only gives the line on which too deep a nesting is reported. -/
theorem nest (generator : Generator) :
    Leads limit [.nest] [] rest ⟨numbering, generator⟩ (generator.depth < limit) []
      ⟨numbering, generator.deeper⟩ := by
  intro taken goals
  have moved : (⟨.nest :: goals, ⟨taken, rest⟩, numbering⟩ : Recognizer).step =
      .ok ([.nest (TokenStream.line ⟨taken, rest⟩)], ⟨goals, ⟨taken, rest⟩, numbering⟩) :=
    Recognizer.step_pass ⟨[.nest _], []⟩ (fun _ _ => rfl) rfl
  exact ⟨_, .step moved (.refl _), generator.performs_nest limit _⟩

/-- What is one level deeper needs one level more. -/
theorem nested {valid : Prop} {levels : Nat}
    (leads : Leads limit [goal] tokens rest ⟨numbering, generator.deeper⟩
      (valid ∧ levels ≤ limit - generator.deeper.depth) events ⟨next, generator.deeper⟩) :
    Leads limit [.nest, goal, .perform [.unnest]] tokens rest ⟨numbering, generator⟩
      (valid ∧ levels + 1 ≤ limit - generator.depth) events ⟨next, generator⟩ := by
  refine ((nest generator).after (leads.before
    (perform (generator.performs_unnest limit)))).congr ⟨?_, ?_⟩ (by simp)
  · rintro ⟨deep, ⟨holds, within⟩, -⟩
    rw [Generator.depth_deeper] at within
    exact ⟨holds, by omega⟩
  · rintro ⟨holds, within⟩
    exact ⟨by omega, ⟨holds, by rw [Generator.depth_deeper]; omega⟩, trivial⟩

end Leads

/-- Goals whose actions emit code and leave nothing else behind. -/
abbrev LeadsTo (limit : Nat) (goals : List Goal) (tokens rest : List Token)
    (numbering : Numbering) (generator : Generator) (fits : Prop) (code : List Instruction) : Prop :=
  Leads limit goals tokens rest ⟨numbering, generator⟩ fits (code.map .instruction)
    ⟨numbering, generator⟩

/-- Goals with the symbol that closes them. -/
theorem LeadsTo.closed {limit : Nat} {goals : List Goal} {tokens rest : List Token}
    {closing : Token} {mark : Symbol} {numbering : Numbering} {generator : Generator} {fits : Prop}
    {code : List Instruction}
    (leads : LeadsTo limit goals tokens (closing :: rest) numbering generator fits code)
    (is : closing.terminal = .symbol mark) :
    LeadsTo limit (goals ++ [.symbol mark]) (tokens ++ [closing]) rest numbering generator fits
      code :=
  (Leads.append leads (Leads.symbol is generator)).congr (and_iff_left trivial)
    (List.append_nil _)

end Jack
