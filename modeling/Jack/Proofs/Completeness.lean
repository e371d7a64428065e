import Jack.Compilation
import Jack.Proofs.Completeness.Class

namespace Jack

/-- All that has to hold for a class to be compiled under a limit on the depth of nesting. -/
structure ClassTree.Compiles (limit : Nat) (tree : ClassTree) : Prop where
  valid : tree.Valid
  numbered : tree.Numbered
  depth : tree.depth ≤ limit

/-- Whether a sink takes this many bytes more. -/
def Sink.HasRoom (sink : Sink) (size : Nat) : Prop :=
  ∀ capacity ∈ sink.capacity, sink.held.size + size ≤ capacity

theorem Sink.HasRoom.write {sink : Sink} {bytes : ByteArray} (room : sink.HasRoom bytes.size) :
    sink.write bytes = ({ sink with held := sink.held ++ bytes }, none) := by
  rw [Sink.write]
  cases limited : sink.capacity with
  | none => rfl
  | some capacity =>
    have within := room capacity limited
    exact if_pos (by omega)

/-- The bytes of a line come before those of the lines behind it. -/
theorem Instruction.toUTF8_lines_cons (instruction : Instruction) (code : List Instruction) :
    (String.join ((instruction :: code).map line)).toUTF8 =
      instruction.line.toUTF8 ++ (String.join (code.map line)).toUTF8 := by
  rw [List.map_cons, String.join_cons]
  rfl

namespace Compilation

/-- With room for all of it the text of the instructions is written. -/
theorem writeOnto_of_hasRoom (messages : Array Message) (events : List Event) (sink : Sink)
    (count : Nat)
    (room : sink.HasRoom
      (String.join ((events.filterMap Event.instruction?).map Instruction.line)).toUTF8.size) :
    (writeOnto messages ⟨sink, count⟩ events).2 =
      (⟨{ sink with held := sink.held ++
            (String.join ((events.filterMap Event.instruction?).map Instruction.line)).toUTF8 },
          count + (events.filterMap Event.instruction?).length⟩, none) := by
  induction events generalizing messages sink count with
  | nil =>
    show (⟨sink, count⟩, none) =
      ((⟨{ sink with held := sink.held ++ ByteArray.empty }, count⟩, none) :
        Writer × Option SinkError)
    rw [ByteArray.append_empty]
  | cons event events ih =>
    rw [writeOnto]
    cases emitted : event.instruction? with
    | none =>
      rw [List.filterMap_cons_none emitted] at room ⊢
      exact ih _ sink count room
    | some instruction =>
      rw [List.filterMap_cons_some emitted, Instruction.toUTF8_lines_cons] at room ⊢
      rw [ByteArray.size_append] at room
      have roomFirst : sink.HasRoom instruction.line.toUTF8.size := by
        intro capacity limited
        have := room capacity limited
        omega
      have roomRest : Sink.HasRoom { sink with held := sink.held ++ instruction.line.toUTF8 }
          (String.join ((events.filterMap Event.instruction?).map
            Instruction.line)).toUTF8.size := by
        intro capacity limited
        have := room capacity limited
        rw [ByteArray.size_append]
        omega
      simp only [Writer.write, roomFirst.write]
      rw [ih _ _ _ roomRest, ByteArray.append_assoc, List.length_cons, Nat.add_right_comm]
      rfl

/-- How compiling ends where there is room for everything. Only a whole class is flushed. -/
def ending (code : ClassCode) (flushFails : Bool) : Except Failure Summary :=
  match code.result with
  | .error error => .error (.refused error)
  | .ok generator =>
    if flushFails then .error (.sink .flush)
    else .ok ⟨generator.className, generator.subroutines, code.instructions.length⟩

/-- Where there is room for it the text of code is written, however the code ends. -/
theorem ofCode_eq_of_hasRoom (code : ClassCode) {sink : Sink}
    (room : sink.HasRoom code.text.toUTF8.size) :
    (ofCode code sink).sink = { sink with held := sink.held ++ code.text.toUTF8 } ∧
      (ofCode code sink).result = ending code sink.flushFails := by
  have writes : writeOnto #[] (.ofSink sink) code.events =
      ((writeOnto #[] (.ofSink sink) code.events).1,
        ⟨{ sink with held := sink.held ++ code.text.toUTF8 }, code.instructions.length⟩, none) :=
    Prod.ext rfl ((writeOnto_of_hasRoom #[] code.events sink 0 room).trans
      (by rw [Nat.zero_add]; rfl))
  rw [ofCode, ending, writes]
  cases code.result with
  | error error => exact ⟨rfl, rfl⟩
  | ok generator => cases sink.flushFails <;> simp [Writer.flush, Sink.flush]

/-- Code without an error is written as a whole where there is room for it. -/
theorem ofCode_of_hasRoom {code : ClassCode} {generator : Generator} {sink : Sink}
    (ends : code.result = .ok generator) (room : sink.HasRoom code.text.toUTF8.size)
    (flushes : sink.flushFails = false) :
    (ofCode code sink).result =
        .ok ⟨generator.className, generator.subroutines, code.instructions.length⟩ ∧
      (ofCode code sink).sink = { sink with held := sink.held ++ code.text.toUTF8 } := by
  obtain ⟨held, result⟩ := ofCode_eq_of_hasRoom code room
  refine ⟨?_, held⟩
  rw [result, ending, ends, flushes]
  rfl

end Compilation

/-- Tokens that spell a class are recognised, and what they ask for is carried out exactly where
the class is valid and does not nest too deep. -/
theorem ClassTree.recognized {tokens : List Token} (right : Prop) (limit : Nat)
    (tree : ClassTree) (spelt : tokens.map Token.terminal = tree.yield)
    (wellSpelt : right → ∀ token ∈ tokens, token.WellSpelt) :
    ∃ actions events later, (Recognizer.ofTokens tokens).run = (actions, none) ∧
      Generator.Performs limit .start actions (tree.Valid ∧ tree.depth ≤ limit) events later ∧
      later.className = tree.name ∧ later.subroutines = tree.subroutines.length ∧
      (right → tree.Valid → events.filterMap Event.instruction? = tree.code) := by
  obtain ⟨events, there, className, counted, code, leads⟩ := tree.leads limit spelt wellSpelt
  obtain ⟨actions, reach, performs⟩ := leads [] []
  refine ⟨actions, events, there.generator, ?_, performs, className, counted, code⟩
  rw [List.append_nil, List.append_nil] at reach
  exact reach.run (Recognizer.step_eq_error_none.2 ⟨rfl, rfl⟩)

/-- The code of a class that is valid and does not nest too deep. -/
theorem ClassTree.ofTokens_eq {limit : Nat} {tree : ClassTree} {tokens : List Token}
    (valid : tree.Valid) (within : tree.depth ≤ limit) (spelt : tree.SpeltBy tokens) :
    ∃ generator, (ClassCode.ofTokens limit tokens).result = .ok generator ∧
      generator.className = tree.name ∧ generator.subroutines = tree.subroutines.length ∧
      (ClassCode.ofTokens limit tokens).instructions = tree.code := by
  obtain ⟨actions, events, later, run, performs, className, counted, code⟩ :=
    tree.recognized True limit spelt.yield fun _ => spelt.wellSpelt
  have ends : ClassCode.ofTokens limit tokens = ⟨events, .ok later⟩ := by
    simp only [ClassCode.ofTokens, run, performs.success ⟨valid, within⟩]
  rw [ends]
  exact ⟨later, rfl, className, counted, code trivial valid⟩

/-- A class that meets all conditions is compiled to the instructions of its tree, however its
tokens are placed. -/
theorem Compilation.ofTokens_translates {limit : Nat} {tree : ClassTree} {tokens : List Token}
    {sink : Sink} (compiles : tree.Compiles limit) (spelt : tree.SpeltBy tokens)
    (room : sink.HasRoom tree.text.toUTF8.size) (flushes : sink.flushFails = false) :
    (ofTokens limit tokens sink).result =
        .ok ⟨tree.name, tree.subroutines.length, tree.code.length⟩ ∧
      (ofTokens limit tokens sink).sink =
        { sink with held := sink.held ++ tree.text.toUTF8 } := by
  obtain ⟨generator, ends, className, counted, code⟩ :=
    ClassTree.ofTokens_eq compiles.valid compiles.depth spelt
  have text : (ClassCode.ofTokens limit tokens).text = tree.text := by
    rw [ClassCode.text, code, ClassTree.text]
  rw [← text] at room
  have written := ofCode_of_hasRoom ends room flushes
  rwa [className, counted, code, text] at written

/-- A class with a field, and with a method that takes steps as long as a number is left. -/
def ClassTree.counter : ClassTree where
  name := "Counter"
  classVariables := [⟨.field, .int, "count", []⟩]
  subroutines :=
    [{ kind := .method
       result := none
       name := "add"
       parameters := [⟨.int, "steps"⟩]
       locals := []
       body :=
        .more (.loop (.mk (.variable "steps") .done)
          (.more (.setVariable "count"
              (.mk (.variable "count") (.more .add (.integer (some 1)) .done)))
            (.more (.setVariable "steps"
              (.mk (.variable "steps") (.more .subtract (.integer (some 1)) .done))) .done)))
          (.more .returnNothing .done) }]

theorem ClassTree.compiles_counter : counter.Compiles 2 where
  valid :=
    { accepted := ⟨by decide, by intro kind; cases kind <;> decide⟩
      subroutines := by
        rw [counter, List.forall_mem_singleton]
        refine ⟨⟨by decide, by intro kind; cases kind <;> decide⟩, ?_⟩
        simp only [Statements.Valid, Statement.Valid, Expression.Valid, Operators.Valid,
          Term.Valid, Option.some.injEq, exists_eq_right']
        decide }
  numbered := by
    rw [Numbered, counter, List.forall_mem_singleton]
    decide
  depth := by decide

theorem Compilation.ofTokens_counter :
    (ofTokens 2 (ClassTree.counter.yield.map Terminal.token) .unlimited).result =
        .ok ⟨"Counter", 1, 19⟩ ∧
      (ofTokens 2 (ClassTree.counter.yield.map Terminal.token) .unlimited).sink =
        ⟨none, false, .empty ++ ClassTree.counter.text.toUTF8⟩ :=
  ofTokens_translates ClassTree.compiles_counter ClassTree.counter.speltBy_tokens
    (fun _ limited => absurd limited (Option.not_mem_none _)) rfl

example : ClassTree.counter.text = "function Counter.add 0
push argument 0
pop pointer 0
label add$WHILE_EXP_0
push argument 1
not
if-goto add$WHILE_END_0
push this 0
push constant 1
add
pop this 0
push argument 1
push constant 1
sub
pop argument 1
goto add$WHILE_EXP_0
label add$WHILE_END_0
push constant 0
return
" := by decide +kernel

end Jack
