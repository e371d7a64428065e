import Jack.Proofs.Jumps

namespace Jack

/-- The name of the function that an instruction declares. -/
def Instruction.function? : Instruction → Option String
  | .function name _ => some name
  | _ => none

/-- The names of the functions that are declared in code, in order. -/
def functionNames (code : List Instruction) : List String :=
  code.filterMap Instruction.function?

theorem filterMap_marks_function? (code : List Instruction) :
    (marks code).filterMap Instruction.function? = functionNames code :=
  filterMap_marks (fun instruction other => by cases instruction <;> trivial) code

/-- Texts are the same before and behind the last place of a character if they are the same. -/
theorem eq_and_eq_of_append_cons {α : Type} {cut : α} {first last front back : List α}
    (notLast : cut ∉ last) (notBack : cut ∉ back)
    (same : first ++ cut :: last = front ++ cut :: back) : first = front ∧ last = back := by
  rcases List.append_eq_append_iff.1 same with ⟨_ | ⟨c, more⟩, isFront, isLast⟩ |
    ⟨_ | ⟨c, more⟩, isFirst, isBack⟩
  · exact ⟨by rw [isFront, List.append_nil], (List.cons.inj isLast).2⟩
  · have member : cut ∈ more ++ cut :: back := List.mem_append_right _ List.mem_cons_self
    exact absurd ((List.cons.inj isLast).2 ▸ member) notLast
  · exact ⟨by rw [isFirst, List.append_nil], (List.cons.inj isBack).2.symm⟩
  · have member : cut ∈ more ++ cut :: last := List.mem_append_right _ List.mem_cons_self
    exact absurd ((List.cons.inj isBack).2 ▸ member) notBack

namespace BranchPoint

/-- What stands behind the dollar sign in the label of a place. -/
def ending (point : BranchPoint) : List Char :=
  point.tag.text.toList ++ '_' :: Nat.toDigits 10 point.number

theorem toList_label (subroutine : String) (point : BranchPoint) :
    (point.label subroutine).toList = subroutine.toList ++ '$' :: point.ending := by
  simp [label, ending, toString, Nat.toList_repr]

theorem dollar_notMem_ending (point : BranchPoint) : '$' ∉ point.ending := by
  intro member
  rcases List.mem_append.1 member with inTag | inNumber
  · revert inTag
    cases point.tag <;> decide
  · rcases List.mem_cons.1 inNumber with isBar | inDigits
    · cases isBar
    · have positive : 0 < 10 := by decide
      cases Nat.isDigit_of_mem_toDigits positive le_rfl inDigits

/-- Labels are injective in the name of the subroutine and in the place, also where the name itself
has dollar signs. -/
theorem label_eq_iff {subroutine other : String} {first second : BranchPoint} :
    first.label subroutine = second.label other ↔ subroutine = other ∧ first = second := by
  constructor
  · intro same
    have texts := congrArg String.toList same
    rw [toList_label, toList_label] at texts
    obtain ⟨names, -⟩ := eq_and_eq_of_append_cons first.dollar_notMem_ending
      second.dollar_notMem_ending texts
    obtain rfl := String.toList_injective names
    exact ⟨rfl, label_injective same⟩
  · rintro ⟨rfl, rfl⟩
    rfl

theorem disjoint_labels {subroutine other : String} {points others : List BranchPoint} :
    (points.map (label subroutine)).Disjoint (others.map (label other)) ↔
      (subroutine = other → points.Disjoint others) := by
  constructor
  · rintro disjoint rfl point member member'
    exact disjoint (List.mem_map_of_mem member) (List.mem_map_of_mem member')
  · intro disjoint name member member'
    obtain ⟨point, inFirst, rfl⟩ := List.mem_map.1 member
    obtain ⟨_, inSecond, same⟩ := List.mem_map.1 member'
    obtain ⟨rfl, rfl⟩ := label_eq_iff.1 same
    exact disjoint rfl inFirst inSecond

end BranchPoint

namespace Subroutine

variable {className : String} {classVariables : List Declaration}

theorem functionNames_code (subroutine : Subroutine) :
    functionNames (subroutine.code className classVariables) =
      [className ++ "." ++ subroutine.name] := by
  have none : (marks (subroutine.body.code (subroutine.environment className classVariables)
      .zero)).filterMap Instruction.function? = [] := by
    refine List.filterMap_eq_nil_iff.2 fun mark member => ?_
    obtain ⟨name, rfl⟩ := Statements.isLabel_of_mem_marks member
    rfl
  rw [← filterMap_marks_function?, marks_code]
  exact congrArg (List.cons _) none

theorem labels_code (subroutine : Subroutine) :
    labels (subroutine.code className classVariables) =
      (subroutine.body.points .zero).map (BranchPoint.label subroutine.name) := by
  rw [← filterMap_marks_label?, marks_code, List.filterMap_cons_none rfl, Statements.marks_code,
    List.filterMap_map, ← List.filterMap_eq_map]
  rfl

/-- A function is named after its class and its subroutine. -/
theorem nodup_functionNames (subroutines : List Subroutine) :
    (functionNames (subroutines.flatMap (code className classVariables))).Nodup ↔
      (subroutines.map name).Nodup := by
  have names : functionNames (subroutines.flatMap (code className classVariables)) =
      (subroutines.map name).map (className ++ "." ++ ·) := by
    rw [functionNames, List.filterMap_flatMap, List.map_map, List.map_eq_flatMap]
    exact List.flatMap_congr fun subroutine _ => subroutine.functionNames_code
  have injective : Function.Injective (className ++ "." ++ ·) :=
    fun _ _ same => (String.append_right_inj _).1 same
  rw [names, List.nodup_map_iff injective]

/-- Labels of two subroutines can only be the same where the subroutines have one name. -/
theorem nodup_labels (subroutines : List Subroutine) :
    (labels (subroutines.flatMap (code className classVariables))).Nodup ↔
      subroutines.Pairwise fun first second => first.name = second.name →
        (first.body.points .zero).Disjoint (second.body.points .zero) := by
  have parts : labels (subroutines.flatMap (code className classVariables)) =
      subroutines.flatMap fun subroutine =>
        (subroutine.body.points .zero).map (BranchPoint.label subroutine.name) := by
    rw [labels, List.filterMap_flatMap]
    exact List.flatMap_congr fun subroutine _ => subroutine.labels_code
  have each (subroutine : Subroutine) :
      ((subroutine.body.points .zero).map (BranchPoint.label subroutine.name)).Nodup :=
    subroutine.labels_code ▸ (subroutine.resolved_code className classVariables).distinct
  rw [parts, List.nodup_flatMap, List.Pairwise.iff fun _ _ => BranchPoint.disjoint_labels]
  exact ⟨fun distinct => distinct.2, fun apart => ⟨fun subroutine _ => each subroutine, apart⟩⟩

end Subroutine

/-- No function is declared twice, and no label is defined twice, in whichever functions. -/
structure UniqueNames (code : List Instruction) : Prop where
  functions : (functionNames code).Nodup
  labels : (labels code).Nodup

/-- Subroutines with names of their own have labels of their own. -/
theorem Subroutine.uniqueNames_iff {className : String} {classVariables : List Declaration}
    (subroutines : List Subroutine) :
    UniqueNames (subroutines.flatMap (code className classVariables)) ↔
      (subroutines.map name).Nodup := by
  constructor
  · rintro ⟨functions, -⟩
    exact (nodup_functionNames subroutines).1 functions
  · intro distinct
    have apart := List.pairwise_map.1 distinct
    refine ⟨(nodup_functionNames subroutines).2 distinct, (nodup_labels subroutines).2 ?_⟩
    exact apart.imp fun other same => absurd same other

/-- The names in what is written for a class: within each function no label stands twice. In the
whole code, names are unique exactly where no two subroutines have the same name, and labels also
where subroutines of the same name have no place of the same kind and number. -/
structure Compilation.WritesNames (limit : Nat) (source : String) (sink : Sink) (summary : Summary)
    (tree : ClassTree) : Prop where
  spelt : (Finding.tokens (Finding.ofSource source)).map Token.terminal = tree.yield
  each : WritesFunctions limit source sink summary fun part => (labels part).Nodup
  unique : UniqueNames (ClassCode.ofSource limit source).instructions ↔
    (tree.subroutines.map Subroutine.name).Nodup
  labels : (labels (ClassCode.ofSource limit source).instructions).Nodup ↔
    tree.subroutines.Pairwise fun first second => first.name = second.name →
      (first.body.points .zero).Disjoint (second.body.points .zero)

theorem Compilation.ofSource_names {limit : Nat} {source : String} {sink : Sink}
    {summary : Summary} (compiled : (ofSource limit source sink).result = .ok summary) :
    ∃ tree : ClassTree, WritesNames limit source sink summary tree := by
  obtain ⟨tree, spelt, valid, within⟩ := exists_tree compiled
  obtain ⟨_, -, -, -, isCode⟩ :=
    ClassTree.ofTokens_eq valid within ⟨spelt, Finding.wellSpelt_of_ofSource⟩
  have code : (ClassCode.ofSource limit source).instructions =
      tree.subroutines.flatMap (Subroutine.code tree.name tree.declarations) := isCode
  refine ⟨tree, spelt, writesFunctions compiled ?_, ?_, ?_⟩
  · intro className classVariables subroutine _
    exact (subroutine.resolved_code className classVariables).distinct
  · rw [code, Subroutine.uniqueNames_iff]
  · rw [code, Subroutine.nodup_labels]

/-- Two functions with the same places to jump to. -/
def brothersSource : String :=
  "class Brothers {
 function void f() {if (true) {} while (false) {} return;}
 function void g() {if (true) {} while (false) {} return;}
}
"

theorem Compilation.ofSource_names_brothers :
    (ofSource 128 brothersSource .unlimited).result = .ok ⟨"Brothers", 2, 34⟩ ∧
      ∃ tree, WritesNames 128 brothersSource .unlimited ⟨"Brothers", 2, 34⟩ tree := by
  have compiled : (ofSource 128 brothersSource .unlimited).result = .ok ⟨"Brothers", 2, 34⟩ := by
    decide +kernel
  exact ⟨compiled, ofSource_names compiled⟩

/-- Two functions of one name. -/
def twinsSource : String :=
  "class Twins {
 function void f() {if (true) {} while (false) {} return;}
 function void f() {if (true) {} while (false) {} return;}
}
"

/-- Nothing asks whether there already is a subroutine of the same name. -/
theorem Compilation.ofSource_names_twins :
    (ofSource 128 twinsSource .unlimited).result = .ok ⟨"Twins", 2, 34⟩ ∧
      ¬(functionNames (ClassCode.ofSource 128 twinsSource).instructions).Nodup ∧
      ¬(labels (ClassCode.ofSource 128 twinsSource).instructions).Nodup := by
  decide +kernel

end Jack
