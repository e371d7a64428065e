import Jack.Proofs.Legible

namespace Jack

/-- Whether a line begins a function. -/
def beginsFunction (line : String) : Bool :=
  (lineWords line).head? == some "function"

theorem Instruction.WellFormed.beginsFunction_text {instruction : Instruction}
    (wellFormed : instruction.WellFormed) :
    beginsFunction instruction.text = instruction.function?.isSome := by
  rw [beginsFunction, wellFormed.lineWords_text]
  cases instruction with
  | operate operation => cases operation <;> decide
  | _ => rfl

/-- The name and the number of locals that a subroutine is written with. -/
def Subroutine.functionLine (className : String) (subroutine : Subroutine) : String :=
  "function " ++ className ++ "." ++ subroutine.name ++ " " ++
    toString (subroutine.locals.flatMap Names.all).length

namespace Subroutine

variable {className : String} {classVariables : List Declaration}

theorem localCount_eq (className : String) (subroutine : Subroutine) :
    subroutine.localCount className = (subroutine.locals.flatMap Names.all).length := by
  have object : Declaration.count .locals (subroutine.kind.object className) = 0 := by
    cases subroutine.kind <;> rfl
  have parameters : Declaration.count .locals
      (subroutine.parameters.map Parameter.declaration) = 0 := by
    refine List.countP_eq_zero.2 fun declaration member => ?_
    obtain ⟨parameter, -, rfl⟩ := List.mem_map.1 member
    simp [Parameter.declaration]
  have all : Declaration.count .locals (subroutine.locals.flatMap (Names.declarations .locals)) =
      (subroutine.locals.flatMap (Names.declarations .locals)).length := by
    refine List.countP_eq_length.2 fun declaration member => ?_
    obtain ⟨names, -, isLocal⟩ := List.mem_flatMap.1 member
    obtain ⟨name, -, rfl⟩ := List.mem_map.1 isLocal
    rfl
  rw [localCount, declarations, Declaration.count_append, Declaration.count_append, object,
    parameters, all, List.length_flatMap, List.length_flatMap]
  simp [Names.declarations]

/-- A subroutine is one function, with as many words as it declares local variables. -/
theorem filter_code (subroutine : Subroutine) :
    (subroutine.code className classVariables).filter (·.function?.isSome) =
      [.function (className ++ "." ++ subroutine.name)
        (subroutine.locals.flatMap Names.all).length] := by
  have names : functionNames (subroutine.code className classVariables) = _ :=
    subroutine.functionNames_code
  have none := List.filterMap_eq_nil_iff.1 (List.cons.inj names).2
  rw [code, List.filter_cons_of_pos rfl, localCount_eq]
  refine congrArg (List.cons _) (List.filter_eq_nil_iff.2 fun instruction member => ?_)
  rw [none instruction member]
  decide

/-- Of the lines of some subroutines those of their functions begin functions. -/
theorem filter_lines {subroutines : List Subroutine}
    (wellFormed : ∀ instruction ∈ subroutines.flatMap (code className classVariables),
      instruction.WellFormed) :
    ((subroutines.flatMap (code className classVariables)).map Instruction.text).filter
      beginsFunction = subroutines.map (functionLine className) := by
  have same := List.filter_congr fun instruction member =>
    (wellFormed instruction member).beginsFunction_text
  have each (subroutine : Subroutine) :
      ((subroutine.code className classVariables).filter (·.function?.isSome)).map
        Instruction.text = [subroutine.functionLine className] := by
    rw [filter_code, List.map_singleton]
    simp [Instruction.text, functionLine, toString, String.append_assoc]
  rw [List.filter_map]
  refine (congrArg (List.map Instruction.text) same).trans ?_
  rw [List.filter_flatMap, List.map_flatMap, List.map_eq_flatMap]
  exact List.flatMap_congr fun subroutine _ => each subroutine

end Subroutine

namespace Compilation

/-- As many instructions are counted as were written. -/
theorem count_writeOnto {messages : Array Message} {writer : Writer} {events : List Event}
    (clean : (writeOnto messages writer events).2.2 = none) :
    (writeOnto messages writer events).2.1.count =
      writer.count + (events.filterMap Event.instruction?).length := by
  induction events generalizing messages writer with
  | nil => rfl
  | cons event events ih =>
    rw [writeOnto] at clean ⊢
    cases emitted : event.instruction? with
    | none =>
      rw [List.filterMap_cons_none emitted]
      simp only [emitted] at clean
      exact ih clean
    | some instruction =>
      rcases wrote : writer.write instruction with ⟨after, _ | error⟩
      · simp only [emitted, wrote] at clean ⊢
        have counted : after.count = writer.count + 1 := by
          unfold Writer.write at wrote
          split at wrote <;> cases wrote
          rfl
        rw [ih clean, counted, List.filterMap_cons_some emitted, List.length_cons]
        omega
      · simp only [emitted, wrote, reduceCtorEq] at clean

/-- The summary of a class that is written. -/
theorem summary_of_ofCode {code : ClassCode} {sink : Sink} {summary : Summary}
    (compiled : (ofCode code sink).result = .ok summary) :
    ∃ generator, code.result = .ok generator ∧
      summary = ⟨generator.className, generator.subroutines, code.instructions.length⟩ := by
  rcases written : writeOnto #[] (.ofSink sink) code.events with ⟨messages, writer, _ | error⟩
  · have counted := count_writeOnto (congrArg (·.2.2) written)
    rw [written, Writer.ofSink, Nat.zero_add] at counted
    simp only [ofCode, written] at compiled
    split at compiled
    · cases compiled
    · cases compiled
    · rename_i generator _ ends
      split at compiled <;> cases compiled
      exact ⟨generator, ends, by rw [counted]; rfl⟩
  · simp only [ofCode, written, reduceCtorEq] at compiled

end Compilation

/-- What the text of a class holds, next to its tree and to its summary. -/
structure Contents (tree : ClassTree) (summary : Summary) (text : String)
    (code : List Instruction) : Prop where
  /-- Every line ends with a newline. -/
  whole : String.join ((textLines text).map (· ++ "\n")) = text
  counted : (textLines text).length = summary.instructions
  each : ∀ line ∈ textLines text,
    ∃! instruction : Instruction, instruction.WellFormed ∧ instruction.text = line
  read : Instruction.ofLines? text = some code
  unique : ∀ other : List Instruction, (∀ instruction ∈ other, instruction.WellFormed) →
    String.join (other.map Instruction.line) = text → other = code
  functions : (textLines text).filter beginsFunction =
    tree.subroutines.map (Subroutine.functionLine summary.className)
  className : summary.className = tree.name
  subroutines : ((textLines text).filter beginsFunction).length = summary.subroutines

/-- Whatever is compiled is written as text that can be read back. -/
theorem Compilation.ofSource_contents {limit : Nat} {source : String} {sink : Sink}
    {summary : Summary} (compiled : (ofSource limit source sink).result = .ok summary) :
    ∃ tree : ClassTree,
      (Finding.tokens (Finding.ofSource source)).map Token.terminal = tree.yield ∧
      (ofSource limit source sink).sink.held =
        sink.held ++ (ClassCode.ofSource limit source).text.toUTF8 ∧
      Contents tree summary (ClassCode.ofSource limit source).text
        (ClassCode.ofSource limit source).instructions := by
  obtain ⟨tree, spelt, valid, within⟩ := exists_tree compiled
  obtain ⟨generator, ends, className, subroutines, isCode⟩ :=
    ClassTree.ofTokens_eq valid within ⟨spelt, Finding.wellSpelt_of_ofSource⟩
  obtain ⟨_, same, rfl⟩ := summary_of_ofCode compiled
  obtain rfl := Except.ok.inj (ends.symm.trans same)
  have code : (ClassCode.ofSource limit source).instructions =
      tree.subroutines.flatMap (Subroutine.code tree.name tree.declarations) := isCode
  have wellFormed := ClassCode.wellFormed_ofSource limit source
  have lines := ClassCode.textLines_ofSource limit source
  have read (other : List Instruction) :
      Instruction.ofLines? (ClassCode.ofSource limit source).text = some other ↔ _ :=
    Instruction.ofLines?_eq_some
  have isRead := (read _).2 ⟨wellFormed, rfl⟩
  have functions : (textLines (ClassCode.ofSource limit source).text).filter beginsFunction =
      tree.subroutines.map (Subroutine.functionLine tree.name) := by
    rw [lines, code]
    exact Subroutine.filter_lines (code ▸ wellFormed)
  refine ⟨tree, spelt, held_of_ofCode compiled, ?_⟩
  refine ⟨?_, ?_, ?_, isRead, ?_, className ▸ functions, className, ?_⟩
  · rw [lines, ← Instruction.join_lines]
    rfl
  · rw [lines, List.length_map]
    rfl
  · rw [lines]
    refine List.forall_mem_map.2 fun instruction member => ?_
    refine ⟨instruction, ⟨wellFormed instruction member, rfl⟩, fun other spells => ?_⟩
    have isOther := Instruction.ofText?_eq_some.2 spells
    rw [Instruction.ofText?_eq_some.2 ⟨wellFormed instruction member, rfl⟩] at isOther
    exact (Option.some.inj isOther).symm
  · intro other wellFormed spelt
    exact (Option.some.inj (isRead.symm.trans ((read other).2 ⟨wellFormed, spelt⟩))).symm
  · rw [functions, List.length_map, ← subroutines]

/-- A constructor, and a function with two locals, a loop and elements of an array. -/
def assortedSource : String :=
  "class Main {
 static Array a;
 constructor Main new() {return this;}
 function void main(int n) {
  var int i; var String text;
  while (i < n) {let a[i] = Main.main(i + 1) * -1; let text = null;}
  return;
 }
}"

theorem Compilation.ofSource_contents_assorted :
    (ofSource 4 assortedSource .unlimited).result = .ok ⟨"Main", 2, 33⟩ ∧
      ∃ tree : ClassTree,
        (Finding.tokens (Finding.ofSource assortedSource)).map Token.terminal = tree.yield ∧
        (ofSource 4 assortedSource .unlimited).sink.held = Sink.unlimited.held ++
          (ClassCode.ofSource 4 assortedSource).text.toUTF8 ∧
        Contents tree ⟨"Main", 2, 33⟩ (ClassCode.ofSource 4 assortedSource).text
          (ClassCode.ofSource 4 assortedSource).instructions := by
  have compiled : (ofSource 4 assortedSource .unlimited).result = .ok ⟨"Main", 2, 33⟩ := by
    decide +kernel
  exact ⟨compiled, ofSource_contents compiled⟩

end Jack
