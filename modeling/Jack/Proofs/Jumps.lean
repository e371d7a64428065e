import Mathlib.Data.List.Nodup
import Jack.Proofs.Output

namespace Jack

/-- The name of the place that an instruction is, if it can be jumped to. -/
def Instruction.label? : Instruction → Option String
  | .label name => some name
  | _ => none

/-- The labels of code, in order. -/
def labels (code : List Instruction) : List String :=
  code.filterMap Instruction.label?

theorem filterMap_marks_label? (code : List Instruction) :
    (marks code).filterMap Instruction.label? = labels code :=
  filterMap_marks (fun instruction other => by cases instruction <;> trivial) code

/-- No two labels are the same where no two marks are. -/
theorem nodup_labels {code : List Instruction} (distinct : (marks code).Nodup) :
    (labels code).Nodup := by
  rw [← filterMap_marks_label?]
  refine List.Nodup.filterMap (fun first last name isFirst isLast => ?_) distinct
  cases first <;> cases isFirst
  cases last <;> cases isLast
  rfl

/-- Every jump of a piece of code stays in it. -/
def Closed (code : List Instruction) : Prop :=
  ∀ instruction ∈ code, ∀ name ∈ instruction.target?, .label name ∈ code

namespace Closed

variable {first last body otherwise : List Instruction} {environment : Environment}

theorem append (front : Closed first) (back : Closed last) : Closed (first ++ last) := by
  intro instruction member name isTarget
  rcases List.mem_append.1 member with member | member
  · exact List.mem_append_left _ (front instruction member name isTarget)
  · exact List.mem_append_right _ (back instruction member name isTarget)

theorem of_straight (straight : Straight first) : Closed first := by
  intro instruction member name isTarget
  rw [Instruction.target?_of_isStraight (straight instruction member)] at isTarget
  cases isTarget

theorem ret : Closed [.ret] := by
  simp [Closed, Instruction.target?]

/-- A choice jumps to its own three labels. -/
theorem choice (number : Nat) (condition : Straight first) (then_ : Closed body)
    (else_ : Closed otherwise) : Closed (environment.choice number first body otherwise) := by
  intro instruction member name isTarget
  simp only [Environment.choice, List.mem_append, List.mem_cons, List.not_mem_nil, or_false]
    at member ⊢
  rcases member with ((((member | own) | member) | own) | member) | own
  · have := of_straight condition instruction member name isTarget
    tauto
  · rcases own with rfl | rfl | rfl <;> cases isTarget
    · simp
    · simp
  · have := then_ instruction member name isTarget
    tauto
  · rcases own with rfl | rfl <;> cases isTarget
    simp
  · have := else_ instruction member name isTarget
    tauto
  · subst own
    cases isTarget

/-- A loop jumps to its own two labels. -/
theorem loop (number : Nat) (condition : Straight first) (body_ : Closed body) :
    Closed (environment.loop number first body) := by
  intro instruction member name isTarget
  simp only [Environment.loop, List.mem_append, List.mem_cons, List.not_mem_nil, or_false]
    at member ⊢
  rcases member with (((own | member) | own) | member) | own
  · subst own
    cases isTarget
  · have := of_straight condition instruction member name isTarget
    tauto
  · rcases own with rfl | rfl <;> cases isTarget
    simp
  · have := body_ instruction member name isTarget
    tauto
  · rcases own with rfl | rfl <;> cases isTarget
    simp

end Closed

variable {environment : Environment}

mutual

/-- However statements are nested, each of them jumps only inside its own code. -/
theorem Statement.closed_code : (statement : Statement) → (numbering : Numbering) →
    Closed (statement.code environment numbering)
  | .setVariable name value, _ =>
    .of_straight ((value.straight_code environment).append (.pop environment name))
  | .setElement name index value, _ =>
    .of_straight (((((Straight.push environment name).append
      (index.straight_code environment)).append (.cons rfl .nil)).append
      (value.straight_code environment)).append (by decide))
  | .doCall qualifier callee arguments, _ =>
    .of_straight ((Straight.call qualifier callee _ (arguments.straight_code environment)).append
      (.cons rfl .nil))
  | .returnNothing, _ => .append (.of_straight (.cons rfl .nil)) .ret
  | .returnValue value, _ => .append (.of_straight (value.straight_code environment)) .ret
  | .ifThen condition body, numbering =>
    .choice _ (condition.straight_code environment) (body.closed_code numbering.choice)
      (.of_straight .nil)
  | .ifElse condition body otherwise, numbering =>
    .choice _ (condition.straight_code environment) (body.closed_code numbering.choice)
      (otherwise.closed_code (body.numbered numbering.choice))
  | .loop condition body, numbering =>
    .loop _ (condition.straight_code environment) (body.closed_code numbering.loop)

theorem Statements.closed_code : (statements : Statements) → (numbering : Numbering) →
    Closed (statements.code environment numbering)
  | .done, _ => .of_straight .nil
  | .more first rest, numbering =>
    (first.closed_code numbering).append (rest.closed_code (first.numbered numbering))

end

theorem Subroutine.closed_code (className : String) (classVariables : List Declaration)
    (subroutine : Subroutine) : Closed (subroutine.code className classVariables) := by
  have opening : Closed (subroutine.opening (Declaration.count .field classVariables)) :=
    .of_straight (subroutine.straight_opening _)
  let environment := subroutine.environment className classVariables
  have body : Closed (subroutine.body.code environment .zero) := subroutine.body.closed_code .zero
  have declared : Closed [.function (className ++ "." ++ subroutine.name)
      (subroutine.localCount className)] := by
    simp [Closed, Instruction.target?]
  exact declared.append (opening.append body)

/-- A label of code without two marks that are the same stands there once. -/
theorem count_label {code : List Instruction} {name : String} (distinct : (marks code).Nodup)
    (member : .label name ∈ code) : code.count (.label name) = 1 := by
  have isMark : (Instruction.label name).isMark = true := rfl
  rw [← List.count_filter isMark]
  exact List.count_eq_one_of_mem distinct (List.mem_filter.2 ⟨member, isMark⟩)

/-- The labels of a function are distinct, and every jump in it names a label that stands in the same
function, once. -/
structure Resolved (code : List Instruction) : Prop where
  distinct : (labels code).Nodup
  once : ∀ name, .goto name ∈ code ∨ .ifGoto name ∈ code → code.count (.label name) = 1

theorem Subroutine.resolved_code (className : String) (classVariables : List Declaration)
    (subroutine : Subroutine) : Resolved (subroutine.code className classVariables) := by
  have distinct : (marks (subroutine.code className classVariables)).Nodup :=
    subroutine.nodup_marks
  have closed := subroutine.closed_code className classVariables
  refine ⟨nodup_labels distinct, ?_⟩
  rintro name (jump | jump)
  · exact count_label distinct (closed _ jump name rfl)
  · exact count_label distinct (closed _ jump name rfl)

/-- In each function that is written all jumps can be resolved. -/
theorem Compilation.ofSource_resolved {limit : Nat} {source : String} {sink : Sink}
    {summary : Summary} (compiled : (ofSource limit source sink).result = .ok summary) :
    WritesFunctions limit source sink summary Resolved :=
  writesFunctions compiled fun className classVariables subroutine _ =>
    subroutine.resolved_code className classVariables

theorem Compilation.ofSource_resolved_branching :
    (ofSource 4 branchingSource .unlimited).result = .ok ⟨"Main", 1, 44⟩ ∧
      WritesFunctions 4 branchingSource .unlimited ⟨"Main", 1, 44⟩ Resolved :=
  ⟨branchingSource_compiled, ofSource_resolved branchingSource_compiled⟩

end Jack
