import Jack.Proofs.Scanning
import Jack.Proofs.Simulation

namespace Jack

def Instruction.isFunction : Instruction → Bool
  | .function .. => true
  | _ => false

/-- The code of each function: it begins where the function is declared and ends in front of the
next one. -/
def functions : List Instruction → List (List Instruction)
  | [] => []
  | instruction :: code =>
    if instruction.isFunction then
      (instruction :: code.takeWhile (!·.isFunction)) :: functions code
    else functions code

theorem functions_cons (name : String) (locals : Nat) (code : List Instruction) :
    functions (.function name locals :: code) =
      (.function name locals :: code.takeWhile (!·.isFunction)) :: functions code :=
  rfl

theorem functions_append {first : List Instruction} (last : List Instruction)
    (inside : ∀ instruction ∈ first, !instruction.isFunction) :
    functions (first ++ last) = functions last := by
  induction first with
  | nil => rfl
  | cons instruction first ih =>
    obtain ⟨head, tail⟩ := List.forall_mem_cons.1 inside
    rw [List.cons_append, functions, if_neg (by simpa using head), ih tail]

namespace Subroutine

variable {className : String} {classVariables : List Declaration}

/-- The code of a subroutine goes on to its end as one function. -/
theorem not_isFunction_of_mem {subroutine : Subroutine} {environment : Environment} {fields : Nat}
    {numbering : Numbering} : ∀ instruction ∈ subroutine.opening fields ++
      subroutine.body.code environment numbering, !instruction.isFunction := by
  intro instruction member
  cases isFunction : instruction.isFunction with
  | false => rfl
  | true =>
    have isMark : instruction.isMark := by cases instruction <;> first | rfl | cases isFunction
    have marked : instruction ∈ marks (subroutine.opening fields ++
        subroutine.body.code environment numbering) := List.mem_filter.2 ⟨member, isMark⟩
    rw [marks_append, marks_opening] at marked
    obtain ⟨name, rfl⟩ := Statements.isLabel_of_mem_marks marked
    cases isFunction

theorem functions_code (subroutines : List Subroutine) :
    functions (subroutines.flatMap (code className classVariables)) =
      subroutines.map (code className classVariables) := by
  induction subroutines with
  | nil => rfl
  | cons subroutine subroutines ih =>
    have stops : (subroutines.flatMap (code className classVariables)).takeWhile (!·.isFunction) =
        [] := by cases subroutines <;> rfl
    rw [List.flatMap_cons, code, List.cons_append, functions_cons,
      List.takeWhile_append_of_pos not_isFunction_of_mem, stops, List.append_nil,
      functions_append _ not_isFunction_of_mem, ih]
    rfl

end Subroutine

open Activation

theorem Compilation.result_ofSource (limit : Nat) (source : String) (sink : Sink) :
    (ofSource limit source sink).result =
      (ofTokens limit (Finding.tokens (Finding.ofSource source)) sink).result :=
  rfl

/-- What is written for a source text is the code of the subroutines of one class, and each part of
it leads to the result, the heap, the statics and the calls that its subroutine leads to. -/
theorem Compilation.ofSource_refines {limit : Nat} {source : String} {sink : Sink}
    {summary : Summary} (compiled : (ofSource limit source sink).result = .ok summary) :
    ∃ (tree : ClassTree) (code : List Instruction),
      (Finding.tokens (Finding.ofSource source)).map Token.terminal = tree.yield ∧
      (ofSource limit source sink).sink.held =
        sink.held ++ (String.join (code.map Instruction.line)).toUTF8 ∧
      functions code = tree.subroutines.map (Subroutine.code tree.name tree.declarations) ∧
      ∀ subroutine ∈ tree.subroutines, ∀ oracle machine ending last,
        subroutine.Runs tree.name tree.declarations oracle machine.store ending last →
        Arrives oracle (subroutine.code tree.name tree.declarations) ⟨0, machine⟩
          (subroutine.code tree.name tree.declarations).length ending last := by
  obtain ⟨tree, spelt, valid, within⟩ := exists_tree compiled
  obtain ⟨generator, -, -, -, isCode⟩ :=
    ClassTree.ofTokens_eq valid within ⟨spelt, Finding.wellSpelt_of_ofSource⟩
  have held := held_of_ofCode compiled
  rw [ClassCode.text, isCode] at held
  exact ⟨tree, tree.code, spelt, held, Subroutine.functions_code tree.subroutines,
    fun subroutine member oracle machine ending last runs =>
      runs.arrives (valid.subroutines subroutine member)⟩

/-- The counter as a source text. -/
def counterSource : String :=
  "class Counter {
 field int count;
 method void add(int steps) {
  while (steps) {let count = count + 1; let steps = steps - 1;}
  return;
 }
}"

theorem counterSource_spelt :
    (Finding.tokens (Finding.ofSource counterSource)).map Token.terminal =
      ClassTree.counter.yield := by
  decide +kernel

theorem counterSource_compiled : ∃ summary,
    (Compilation.ofSource 2 counterSource .unlimited).result = .ok summary := by
  obtain ⟨generator, ends, -⟩ := ClassTree.ofTokens_eq ClassTree.compiles_counter.valid
    ClassTree.compiles_counter.depth ⟨counterSource_spelt, Finding.wellSpelt_of_ofSource⟩
  rw [Compilation.result_ofSource, Compilation.ofTokens]
  exact ⟨_, (Compilation.ofCode_of_hasRoom ends
    (fun _ limited => absurd limited (Option.not_mem_none _) : Sink.unlimited.HasRoom _) rfl).1⟩

/-- Without steps to take the method only takes hold of its object, and returns zero. -/
theorem Compilation.ofSource_refines_counter : ∃ (tree : ClassTree) (code : List Instruction),
    (Finding.tokens (Finding.ofSource counterSource)).map Token.terminal = tree.yield ∧
    (ofSource 2 counterSource .unlimited).sink.held =
      .empty ++ (String.join (code.map Instruction.line)).toUTF8 ∧
    functions code = tree.subroutines.map (Subroutine.code tree.name tree.declarations) ∧
    ∀ subroutine ∈ tree.subroutines, ∀ (oracle : Oracle) (machine : Machine),
      machine.frame.arguments 1 = 0 →
      Arrives oracle (subroutine.code tree.name tree.declarations) ⟨0, machine⟩
        (subroutine.code tree.name tree.declarations).length (.returned 0)
        ⟨{ machine.frame.cleared 0 with this := machine.frame.arguments 0 }, machine.world⟩ := by
  obtain ⟨summary, compiled⟩ := counterSource_compiled
  obtain ⟨tree, code, spelt, held, parts, refines⟩ := ofSource_refines compiled
  obtain rfl := ClassTree.yield_injective (spelt.symm.trans counterSource_spelt)
  refine ⟨_, code, spelt, held, parts, fun subroutine member oracle machine none => ?_⟩
  refine refines subroutine member oracle machine _ _ ?_
  obtain rfl := List.mem_singleton.1 member
  exact .next (.loopEnd (Prod.ext none rfl) (by decide)) (.stop .returnNothing)

end Jack
