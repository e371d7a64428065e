import Std.Data.String.ToNat
import Jack.Proofs.Straight

namespace Jack

/-- Whether an instruction only names a place in code. -/
def Instruction.isMark : Instruction → Bool
  | .label _ | .function .. => true
  | _ => false

def marks (code : List Instruction) : List Instruction :=
  code.filter Instruction.isMark

@[simp] theorem marks_nil : marks [] = [] :=
  rfl

@[simp] theorem marks_cons (instruction : Instruction) (code : List Instruction) :
    marks (instruction :: code) =
      if instruction.isMark then instruction :: marks code else marks code :=
  List.filter_cons

@[simp] theorem marks_append (first last : List Instruction) :
    marks (first ++ last) = marks first ++ marks last :=
  List.filter_append ..

/-- What only marks have is found among the marks. -/
theorem filterMap_marks {α : Type} {found? : Instruction → Option α}
    (onMarks : ∀ instruction, ¬instruction.isMark → found? instruction = none)
    (code : List Instruction) : (marks code).filterMap found? = code.filterMap found? := by
  rw [marks, List.filterMap_filter]
  refine congrArg (List.filterMap · code) (funext fun instruction => ?_)
  by_cases isMark : instruction.isMark
  · rw [if_pos isMark]
  · rw [if_neg isMark, onMarks instruction isMark]

theorem BranchPoint.label_injective {subroutine : String} {first second : BranchPoint}
    (same : first.label subroutine = second.label subroutine) : first = second := by
  obtain ⟨tag, number⟩ := first
  obtain ⟨otherTag, otherNumber⟩ := second
  have texts := congrArg String.toList same
  simp only [label, toString, String.toList_append, List.append_assoc, List.append_cancel_left_eq]
    at texts
  have tags : tag = otherTag := by
    cases tag <;> cases otherTag <;> first | rfl | simp [BranchTag.text] at texts
  subst tags
  rw [List.append_cancel_left_eq, List.append_cancel_left_eq] at texts
  rw [Nat.repr_injective (String.toList_injective texts)]

def BranchPoint.mark (subroutine : String) (point : BranchPoint) : Instruction :=
  .label (point.label subroutine)

/-- The number that the next statement with a place of this kind gets. -/
def Numbering.get (numbering : Numbering) : BranchTag → Nat
  | .ifTrue | .ifFalse | .ifEnd => numbering.ifs
  | .whileStart | .whileEnd => numbering.whiles

namespace BranchPoint

/-- Places of the statements between two numberings, each of them once. -/
structure Apart (first last : Numbering) (points : List BranchPoint) : Prop where
  grows : ∀ tag, first.get tag ≤ last.get tag
  between : ∀ point ∈ points,
    first.get point.tag ≤ point.number ∧ point.number < last.get point.tag
  distinct : points.Nodup

namespace Apart

variable {first middle last : Numbering} {points others : List BranchPoint}

theorem nil (numbering : Numbering) : Apart numbering numbering [] where
  grows _ := Nat.le_refl _
  between _ member := absurd member List.not_mem_nil
  distinct := List.nodup_nil

theorem append (front : Apart first middle points) (back : Apart middle last others) :
    Apart first last (points ++ others) where
  grows tag := Nat.le_trans (front.grows tag) (back.grows tag)
  between point member := by
    have before := front.grows point.tag
    have behind := back.grows point.tag
    rcases List.mem_append.1 member with member | member
    · have := front.between point member
      omega
    · have := back.between point member
      omega
  distinct := by
    refine List.nodup_append.2 ⟨front.distinct, back.distinct, ?_⟩
    rintro point member other member' rfl
    have := front.between point member
    have := back.between point member'
    omega

theorem perm (apart : Apart first last points) (same : others.Perm points) :
    Apart first last others where
  grows := apart.grows
  between point member := apart.between point (same.mem_iff.1 member)
  distinct := same.nodup_iff.2 apart.distinct

/-- The three places of a choice have a number that nothing inside it has. -/
theorem choice (body : Apart first.choice middle points) (otherwise : Apart middle last others) :
    Apart first last (⟨.ifTrue, first.ifs⟩ :: (points ++
      ⟨.ifFalse, first.ifs⟩ :: (others ++ [⟨.ifEnd, first.ifs⟩]))) := by
  have own : Apart first first.choice
      [⟨.ifTrue, first.ifs⟩, ⟨.ifFalse, first.ifs⟩, ⟨.ifEnd, first.ifs⟩] :=
    ⟨fun tag => by cases tag <;> simp [Numbering.get, Numbering.choice],
      by simp [Numbering.get, Numbering.choice], by simp⟩
  refine (own.append (body.append otherwise)).perm (.cons _ (List.perm_middle.trans (.cons _ ?_)))
  rw [← List.append_assoc]
  exact List.perm_append_singleton ..

/-- The two places of a loop have a number that nothing inside it has. -/
theorem loop (body : Apart first.loop last points) :
    Apart first last (⟨.whileStart, first.whiles⟩ :: (points ++ [⟨.whileEnd, first.whiles⟩])) := by
  have own : Apart first first.loop [⟨.whileStart, first.whiles⟩, ⟨.whileEnd, first.whiles⟩] :=
    ⟨fun tag => by cases tag <;> simp [Numbering.get, Numbering.loop],
      by simp [Numbering.get, Numbering.loop], by simp⟩
  exact (own.append body).perm (.cons _ (List.perm_append_singleton ..))

end Apart

end BranchPoint

mutual

/-- The places in the code of a statement that can be jumped to, in order. -/
def Statement.points (numbering : Numbering) : Statement → List BranchPoint
  | .ifThen _ body =>
    ⟨.ifTrue, numbering.ifs⟩ :: (body.points numbering.choice ++
      [⟨.ifFalse, numbering.ifs⟩, ⟨.ifEnd, numbering.ifs⟩])
  | .ifElse _ body otherwise =>
    ⟨.ifTrue, numbering.ifs⟩ :: (body.points numbering.choice ++
      ⟨.ifFalse, numbering.ifs⟩ :: (otherwise.points (body.numbered numbering.choice) ++
        [⟨.ifEnd, numbering.ifs⟩]))
  | .loop _ body =>
    ⟨.whileStart, numbering.whiles⟩ :: (body.points numbering.loop ++
      [⟨.whileEnd, numbering.whiles⟩])
  | .setVariable .. | .setElement .. | .doCall .. | .returnNothing | .returnValue _ => []

def Statements.points (numbering : Numbering) : Statements → List BranchPoint
  | .done => []
  | .more first rest => first.points numbering ++ rest.points (first.numbered numbering)

end

mutual

/-- Statements share no place, since their numbers are different ranges. -/
theorem Statement.apart : (statement : Statement) → (numbering : Numbering) →
    BranchPoint.Apart numbering (statement.numbered numbering) (statement.points numbering)
  | .ifThen _ body, numbering => (body.apart numbering.choice).choice (.nil _)
  | .ifElse _ body otherwise, numbering =>
    (body.apart numbering.choice).choice (otherwise.apart (body.numbered numbering.choice))
  | .loop _ body, numbering => (body.apart numbering.loop).loop
  | .setVariable .., numbering | .setElement .., numbering | .doCall .., numbering
  | .returnNothing, numbering | .returnValue _, numbering => .nil numbering

theorem Statements.apart : (statements : Statements) → (numbering : Numbering) →
    BranchPoint.Apart numbering (statements.numbered numbering) (statements.points numbering)
  | .done, numbering => .nil numbering
  | .more first rest, numbering =>
    (first.apart numbering).append (rest.apart (first.numbered numbering))

end

variable {environment : Environment}

theorem Instruction.not_isMark_of_isStraight {instruction : Instruction}
    (straight : instruction.isStraight) : ¬instruction.isMark := by
  cases instruction <;> simp [isMark, isStraight] at straight ⊢

/-- Straight code cannot be entered on its way. -/
theorem Straight.marks_eq_nil {code : List Instruction} (straight : Straight code) :
    marks code = [] :=
  List.filter_eq_nil_iff.2 fun instruction member =>
    Instruction.not_isMark_of_isStraight (straight instruction member)

@[simp] theorem marks_push (name : String) : marks (environment.push name) = [] :=
  (Straight.push environment name).marks_eq_nil

@[simp] theorem marks_pop (name : String) : marks (environment.pop name) = [] :=
  (Straight.pop environment name).marks_eq_nil

@[simp] theorem marks_call (qualifier : Option String) (callee : String) (arguments : Arguments)
    (count : Nat) :
    marks (environment.call qualifier callee (arguments.code environment) count) = [] :=
  (Straight.call qualifier callee count (arguments.straight_code environment)).marks_eq_nil

@[simp] theorem Expression.marks_code (expression : Expression) :
    marks (expression.code environment) = [] :=
  (expression.straight_code environment).marks_eq_nil

mutual

theorem Statement.marks_code : (statement : Statement) → (numbering : Numbering) →
    marks (statement.code environment numbering) =
      (statement.points numbering).map (BranchPoint.mark environment.subroutine)
  | .setVariable name value, numbering => by simp [Statement.code, Statement.points]
  | .setElement name index value, numbering => by
    simp [Statement.code, Statement.points, Instruction.isMark]
  | .doCall qualifier callee arguments, numbering => by
    simp [Statement.code, Statement.points, Instruction.isMark]
  | .returnNothing, numbering => rfl
  | .returnValue value, numbering => by
    simp [Statement.code, Statement.points, Instruction.isMark]
  | .ifThen condition body, numbering => by
    have inner := body.marks_code numbering.choice
    simp [Statement.code, Statement.points, Environment.choice, Instruction.isMark, inner,
      BranchPoint.mark, Environment.label_eq, BranchTag.text]
  | .ifElse condition body otherwise, numbering => by
    have inner := body.marks_code numbering.choice
    have others := otherwise.marks_code (body.numbered numbering.choice)
    simp [Statement.code, Statement.points, Environment.choice, Instruction.isMark, inner, others,
      BranchPoint.mark, Environment.label_eq, BranchTag.text]
  | .loop condition body, numbering => by
    have inner := body.marks_code numbering.loop
    simp [Statement.code, Statement.points, Environment.loop, Instruction.isMark, inner,
      BranchPoint.mark, Environment.label_eq, BranchTag.text]

theorem Statements.marks_code : (statements : Statements) → (numbering : Numbering) →
    marks (statements.code environment numbering) =
      (statements.points numbering).map (BranchPoint.mark environment.subroutine)
  | .done, numbering => rfl
  | .more first rest, numbering => by
    rw [Statements.code, Statements.points, marks_append, List.map_append,
      first.marks_code numbering, rest.marks_code]

end

/-- Only labels are marks in the code of statements. -/
theorem Statements.isLabel_of_mem_marks {statements : Statements} {numbering : Numbering}
    {mark : Instruction} (member : mark ∈ marks (statements.code environment numbering)) :
    ∃ name, mark = .label name := by
  rw [statements.marks_code] at member
  obtain ⟨point, -, rfl⟩ := List.mem_map.1 member
  exact ⟨_, rfl⟩

theorem Statements.nodup_marks (statements : Statements) (numbering : Numbering) :
    (marks (statements.code environment numbering)).Nodup := by
  have distinct := (statements.apart numbering).distinct
  rw [statements.marks_code]
  exact List.Pairwise.map _ (fun _ _ other same =>
    other (BranchPoint.label_injective (Instruction.label.inj same))) distinct

namespace Subroutine

variable {className : String} {classVariables : List Declaration}

theorem marks_opening (fields : Nat) (subroutine : Subroutine) :
    marks (subroutine.opening fields) = [] :=
  (subroutine.straight_opening fields).marks_eq_nil

theorem marks_code (subroutine : Subroutine) : marks (subroutine.code className classVariables) =
    .function (className ++ "." ++ subroutine.name) (subroutine.localCount className) ::
      marks (subroutine.body.code (subroutine.environment className classVariables) .zero) := by
  rw [code, marks_cons, marks_append, marks_opening]
  rfl

/-- No two marks of a subroutine are the same, so that a jump leads to one place only. -/
theorem nodup_marks (subroutine : Subroutine) :
    (marks (subroutine.code className classVariables)).Nodup := by
  rw [marks_code]
  refine List.nodup_cons.2 ⟨fun member => ?_, subroutine.body.nodup_marks .zero⟩
  obtain ⟨name, same⟩ := Statements.isLabel_of_mem_marks member
  cases same

end Subroutine

end Jack
