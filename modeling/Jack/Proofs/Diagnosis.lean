import Jack.Proofs.Diagnosis.Outline
import Jack.Proofs.Output
import Jack.Proofs.Soundness

namespace Jack

/-- Where the recognizer and the generator stand among tokens: outside of statements, or among those
of a subroutine. -/
inductive Stands (tokens : List Token) : Recognizer → Generator → Prop
  | outside {goals : List Goal} {taken rest : List Token} {numbering : Numbering}
      {generator : Generator} (whole : tokens = taken.reverse ++ rest)
      (outline : Outline goals (taken.reverse.map Token.terminal) generator) :
      Stands tokens ⟨goals, ⟨taken, rest⟩, numbering⟩ generator
  | inside {tree : ClassTree} {subroutine : Subroutine} {taken inside rest : List Token}
      {inner : List Goal} {numbering : Numbering} {generator : Generator}
      (within : Inside tokens tree subroutine taken inside rest inner numbering generator) :
      Stands tokens
        ⟨inner ++ .symbol .rightBrace :: Goal.members, ⟨inside ++ taken, rest⟩, numbering⟩ generator

/-- What was taken of statements that have ended spells a body of the subroutine. -/
theorem Inside.spells {tokens taken inside rest : List Token} {tree : ClassTree}
    {subroutine : Subroutine} {numbering : Numbering} {generator : Generator}
    (within : Inside tokens tree subroutine taken inside rest [] numbering generator) :
    ∃ body, (inside ++ taken).reverse.map Token.terminal ++ [.symbol .rightBrace] =
      (tree.add { subroutine with body }).front := by
  obtain ⟨start, actions, reach, -⟩ := within.reach
  obtain ⟨first, isFirst, means⟩ := reach.means rfl
  obtain rfl : inside.reverse = first := List.append_cancel_right isFirst
  obtain ⟨body, isBody⟩ := means.single
  refine ⟨body, ?_⟩
  rw [List.reverse_append, List.map_append, within.header, isBody, ClassTree.front_add,
    Subroutine.yield_eq_header]
  simp [Subroutine.header]

namespace Stands

variable {limit : Nat} {tokens taken rest : List Token} {goal : Goal} {goals : List Goal}
  {numbering : Numbering} {generator : Generator} {here next : Recognizer} {actions : List Action}

theorem step_outside (scanned : ∀ token ∈ tokens, token.Scanned)
    (whole : tokens = taken.reverse ++ rest)
    (outline : Outline (goal :: goals) (taken.reverse.map Token.terminal) generator)
    (moved : (⟨goal :: goals, ⟨taken, rest⟩, numbering⟩ : Recognizer).step = .ok (actions, next)) :
    generator.Answers limit actions (Stands tokens next) (Diagnoses limit tokens) := by
  obtain ⟨step, rfl, ⟨token, behind, rfl, took, rfl⟩ | ⟨-, moves, rfl⟩⟩ :=
    Recognizer.step_cons moved
  · have isNext : tokens = (token :: taken).reverse ++ behind := by simp [whole]
    refine (outline.take (scanned token (by simp [whole])) took).mono (fun later outline => ?_)
      fun error blames => whole ▸ blames taken.reverse behind rfl
    exact .outside isNext (by simpa using outline)
  · rcases outline.pass moves with answers | ⟨tree, subroutine, rfl, rfl, header, holds⟩
    · exact answers.mono (fun later outline => .outside whole outline) fun _ => id
    · have within : Inside tokens tree subroutine taken [] rest [.statements] numbering generator :=
        ⟨whole, header, ⟨numbering, [], .refl _, fun _ => nofun⟩, holds⟩
      exact .inside within

theorem step_inside {tree : ClassTree} {subroutine : Subroutine} {inside : List Token}
    {inner : List Goal} (scanned : ∀ token ∈ tokens, token.Scanned)
    (within : Inside tokens tree subroutine taken inside rest inner numbering generator)
    (moved : (⟨inner ++ .symbol .rightBrace :: Goal.members, ⟨inside ++ taken, rest⟩, numbering⟩ :
      Recognizer).step = .ok (actions, next)) :
    generator.Answers limit actions (Stands tokens next) (Diagnoses limit tokens) := by
  cases inner with
  | nil =>
    obtain ⟨step, rfl, ⟨token, behind, rfl, took, rfl⟩ | ⟨-, moves, -⟩⟩ :=
      Recognizer.step_cons moved
    · obtain ⟨is, rfl⟩ := Goal.eq_of_takeIf took
      obtain ⟨body, spells⟩ := within.spells
      have isNext : tokens = (token :: (inside ++ taken)).reverse ++ behind := by
        simp [within.whole]
      have outline := Outline.members (within.holds.ready_add { subroutine with body })
      rw [← spells, ← Token.terminal_of_symbol is] at outline
      have stands : Stands tokens ⟨Goal.members, _, numbering.after token⟩ generator :=
        .outside isNext (by simpa using outline)
      exact stands
    · cases moves
  | cons goal inner =>
    obtain ⟨added, isNext, further⟩ := Recognizer.step_inner moved
    unfold Generator.Answers
    split <;> rename_i outcome
    · obtain ⟨more, behind, stream, within⟩ := within.step further outcome
      obtain ⟨goals, _, numbering⟩ := next
      obtain rfl : goals = _ := isNext
      obtain rfl := stream
      exact .inside within
    · exact within.diagnoses scanned further outcome

theorem step (scanned : ∀ token ∈ tokens, token.Scanned) (stands : Stands tokens here generator)
    (moved : here.step = .ok (actions, next)) :
    generator.Answers limit actions (Stands tokens next) (Diagnoses limit tokens) := by
  cases stands with
  | @outside goals taken rest numbering _ whole outline =>
    cases goals with
    | nil => simp [Recognizer.step] at moved
    | cons goal goals => exact step_outside scanned whole outline moved
  | inside within => exact step_inside scanned within moved

end Stands

/-- The error of a class that is refused is true of its tokens. -/
theorem ClassCode.diagnoses {limit : Nat} {tokens : List Token} {error : CompileError}
    (scanned : ∀ token ∈ tokens, token.Scanned)
    (refused : (ofTokens limit tokens).result = .error error) : Diagnoses limit tokens error := by
  obtain ⟨last, reach, stopped⟩ := Recognizer.reaches_stop (Recognizer.ofTokens tokens)
  have begun : Stands tokens (Recognizer.ofTokens tokens) .start := .outside rfl .start
  simp only [ofTokens] at refused
  split at refused <;> cases refused
  · rename_i events generator unexpected performed failed
    rw [failed] at stopped
    obtain ⟨expected, rfl⟩ := Recognizer.exists_unexpected stopped
    obtain ⟨first, whole, taken⟩ := reach.taken
    have all : tokens = last.stream.taken.reverse ++ last.stream.rest := by
      rw [taken, List.reverse_append, List.reverse_reverse]
      exact whole
    have reports := TokenStream.reports_unexpected last.stream.taken last.stream.rest expected
    rw [← all] at reports
    exact .unexpected reports
  · rename_i events failed performed
    obtain ⟨middle, next, others, later, stands, moved, refused⟩ := reach.exists_refused
      (fun stands moved done => (stands.step scanned moved).of_ok done) begun
      (congrArg Prod.snd performed)
    exact (stands.step scanned moved).of_error refused

/-- Where a sink never fails, a source text fails to compile only for an error that is true of its
tokens. No variable is declared in a scope of the wrong kind, no name `this` is declared a second
time, and what was written in front of the error is text. -/
theorem Compilation.ofSource_diagnoses {limit : Nat} {source : String} {sink : Sink}
    {failure : Failure} (room : sink.HasRoom (ClassCode.ofSource limit source).text.toUTF8.size)
    (flushes : sink.flushFails = false)
    (failed : (ofSource limit source sink).result = .error failure) :
    ∃ error, failure = .refused error ∧
      Diagnoses limit (Finding.tokens (Finding.ofSource source)) error ∧
      (∀ line name kind, error ≠ .declaration line (.wrongScope name kind)) ∧
      (∀ line, error ≠ .declaration line (.redefined "this")) ∧
      (ofSource limit source sink).sink.held =
        sink.held ++ (ClassCode.ofSource limit source).text.toUTF8 := by
  obtain ⟨written, ends⟩ := ofCode_eq_of_hasRoom (ClassCode.ofSource limit source) room
  have outcome : ending (ClassCode.ofSource limit source) sink.flushFails = .error failure :=
    ends.symm.trans failed
  rw [flushes, ending] at outcome
  split at outcome <;> cases outcome
  rename_i error refused
  have diagnoses := ClassCode.diagnoses (Finding.scanned_ofSource source) refused
  refine ⟨error, rfl, diagnoses, ?_, ?_, congrArg Sink.held written⟩
  · rintro line name kind rfl
    cases diagnoses
  · rintro line rfl
    exact diagnoses.ne_this rfl

/-- A class with an assignment that reads a name of another subroutine. -/
def foreignSource : String :=
  "class Main {
 function void first() {var int y; return;}
 function void second() {
  var int x;
  let x = y;
  return;
 }
}"

/-- The name is found where it stands, and nothing in front of it declares it. -/
theorem Compilation.ofSource_diagnoses_foreign :
    (ofSource 2 foreignSource .unlimited).result = .error (.refused (.undefined 5 "y")) ∧
      Diagnoses 2 (Finding.tokens (Finding.ofSource foreignSource)) (.undefined 5 "y") := by
  have failed : (ofSource 2 foreignSource .unlimited).result =
      .error (.refused (.undefined 5 "y")) := by
    decide +kernel
  have room : Sink.unlimited.HasRoom (ClassCode.ofSource 2 foreignSource).text.toUTF8.size :=
    fun _ limited => absurd limited (Option.not_mem_none _)
  obtain ⟨error, same, diagnoses, -⟩ := ofSource_diagnoses room rfl failed
  obtain rfl := Failure.refused.inj same
  exact ⟨failed, diagnoses⟩

end Jack
