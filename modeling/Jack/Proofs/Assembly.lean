import Jack.Token.Piece
import Jack.Vm.Instruction

namespace Jack

theorem Segment.ofText?_eq_some {word : String} {segment : Segment} :
    Segment.ofText? word = some segment ↔ segment.text = word := by
  constructor
  · intro read
    simpa using List.find?_some read
  · rintro rfl
    exact segment.ofText?_text

theorem Operation.ofText?_eq_some {word : String} {operation : Operation} :
    Operation.ofText? word = some operation ↔ operation.text = word := by
  constructor
  · intro read
    simpa using List.find?_some read
  · rintro rfl
    exact operation.ofText?_text

namespace Instruction

/-- Letters, digits, and the three characters that are put between the parts of a name. -/
def isNameChar (c : Char) : Bool :=
  Piece.isWordChar c || c == '.' || c == '$'

/-- A name as it stands in the text of an instruction. -/
structure IsName (name : String) : Prop where
  nonempty : name ≠ ""
  chars : ∀ c ∈ name.toList, isNameChar c = true

instance (name : String) : Decidable (IsName name) :=
  decidable_of_iff (name ≠ "" ∧ name.toList.all isNameChar = true)
    ⟨fun ⟨nonempty, chars⟩ => ⟨nonempty, List.all_eq_true.1 chars⟩,
      fun ⟨nonempty, chars⟩ => ⟨nonempty, List.all_eq_true.2 chars⟩⟩

/-- An instruction of the machine: its numbers are words of 16 bits, and its names are names. -/
def WellFormed : Instruction → Prop
  | push _ index | pop _ index => index < 65536
  | operate _ | ret => True
  | label name | goto name | ifGoto name => IsName name
  | call name count | function name count => IsName name ∧ count < 65536

instance : DecidablePred WellFormed := fun instruction => by
  cases instruction <;> unfold WellFormed <;> infer_instance

/-- The words of the text of an instruction. -/
def words : Instruction → List String
  | push segment index => ["push", segment.text, index.repr]
  | pop segment index => ["pop", segment.text, index.repr]
  | operate operation => [operation.text]
  | label name => ["label", name]
  | goto name => ["goto", name]
  | ifGoto name => ["if-goto", name]
  | call callee arguments => ["call", callee, arguments.repr]
  | function name locals => ["function", name, locals.repr]
  | ret => ["return"]

/-- A number of 16 bits in decimal digits, without a zero in front of others. -/
def number? (word : String) : Option Nat :=
  let value := Nat.ofDigitChars 10 word.toList 0
  if value < 65536 ∧ value.repr = word then some value else none

def name? (word : String) : Option String :=
  if IsName word then some word else none

def ofWords? : List String → Option Instruction
  | ["push", segment, index] => do return push (← Segment.ofText? segment) (← number? index)
  | ["pop", segment, index] => do return pop (← Segment.ofText? segment) (← number? index)
  | ["label", name] => (name? name).map label
  | ["goto", name] => (name? name).map goto
  | ["if-goto", name] => (name? name).map ifGoto
  | ["call", callee, arguments] => do return call (← name? callee) (← number? arguments)
  | ["function", name, locals] => do return function (← name? name) (← number? locals)
  | ["return"] => some ret
  | [word] => (Operation.ofText? word).map operate
  | _ => none

end Instruction

/-- The words of a line, with a blank between each two of them. -/
def lineWords (line : String) : List String :=
  (line.toList.splitOn ' ').map String.ofList

/-- The instruction that a line spells. -/
def Instruction.ofText? (line : String) : Option Instruction :=
  ofWords? (lineWords line)

/-- The lines of a text, each of which ends with a newline. What stands behind the last newline is
no line. -/
def textLines (text : String) : List String :=
  (text.toList.splitOn '\n').dropLast.map String.ofList

/-- The instructions that a text of whole lines spells. -/
def Instruction.ofLines? (text : String) : Option (List Instruction) :=
  if (text.toList.splitOn '\n').getLast? = some [] then (textLines text).mapM ofText? else none

theorem mem_of_mem_intercalate {α : Type} {cut c : α} {parts : List (List α)}
    (member : c ∈ [cut].intercalate parts) : c = cut ∨ ∃ part ∈ parts, c ∈ part := by
  induction parts with
  | nil => cases member
  | cons part parts ih =>
    by_cases last : parts = []
    · subst last
      rw [List.intercalate_singleton] at member
      exact .inr ⟨part, List.mem_singleton_self part, member⟩
    · rw [List.intercalate_cons_of_ne_nil last, List.append_assoc, List.mem_append,
        List.singleton_append, List.mem_cons] at member
      obtain own | isCut | later := member
      · exact .inr ⟨part, List.mem_cons_self, own⟩
      · exact .inl isCut
      · exact (ih later).imp_right fun ⟨other, isOne, inside⟩ =>
          ⟨other, List.mem_cons_of_mem part isOne, inside⟩

theorem toList_join_lines (lines : List String) :
    (String.join (lines.map (· ++ "\n"))).toList =
      ['\n'].intercalate (lines.map String.toList ++ [[]]) := by
  induction lines with
  | nil => rfl
  | cons line lines ih =>
    have more : lines.map String.toList ++ [[]] ≠ [] :=
      List.append_ne_nil_of_right_ne_nil _ (List.cons_ne_nil _ _)
    rw [List.map_cons, String.join_cons, String.toList_append, ih, List.map_cons, List.cons_append,
      List.intercalate_cons_of_ne_nil more, String.toList_append]
    rfl

theorem splitOn_join_lines {lines : List String} (whole : ∀ line ∈ lines, '\n' ∉ line.toList) :
    (String.join (lines.map (· ++ "\n"))).toList.splitOn '\n' =
      lines.map String.toList ++ [[]] := by
  rw [toList_join_lines, List.splitOn_intercalate]
  · refine List.forall_mem_append.2 ⟨List.forall_mem_map.2 whole, ?_⟩
    exact List.forall_mem_singleton.2 List.not_mem_nil
  · exact List.append_ne_nil_of_right_ne_nil _ (List.cons_ne_nil _ _)

/-- The lines of a text are those that it was put together from. -/
theorem textLines_join {lines : List String} (whole : ∀ line ∈ lines, '\n' ∉ line.toList) :
    textLines (String.join (lines.map (· ++ "\n"))) = lines := by
  rw [textLines, splitOn_join_lines whole, List.dropLast_concat, List.map_map]
  simp [Function.comp_def]

/-- A text with nothing behind its last newline is put together from its lines. -/
theorem join_textLines {text : String}
    (ends : (text.toList.splitOn '\n').getLast? = some []) :
    String.join ((textLines text).map (· ++ "\n")) = text := by
  refine String.toList_injective ?_
  have pieces : (textLines text).map String.toList ++ [[]] = text.toList.splitOn '\n' := by
    obtain ⟨front, spelt⟩ := List.getLast?_eq_some_iff.1 ends
    rw [textLines, spelt, List.dropLast_concat, List.map_map]
    simp [Function.comp_def]
  rw [toList_join_lines, pieces, List.intercalate_splitOn]

namespace Instruction

variable {instruction : Instruction} {word name line text : String}

theorem number?_eq_some {value : Nat} :
    number? word = some value ↔ value < 65536 ∧ value.repr = word := by
  unfold number?
  constructor
  · intro read
    dsimp only at read
    split at read <;> cases read
    assumption
  · rintro ⟨small, rfl⟩
    have value : Nat.ofDigitChars 10 value.repr.toList 0 = value := by
      rw [Nat.toList_repr, Nat.ofDigitChars_ten_toDigits]
    simp only [value, small, and_self, if_true]

theorem name?_eq_some : name? word = some name ↔ IsName name ∧ name = word := by
  unfold name?
  constructor
  · intro read
    split at read <;> cases read
    exact ⟨‹_›, rfl⟩
  · rintro ⟨isName, rfl⟩
    exact if_pos isName

theorem ofWords?_words (wellFormed : instruction.WellFormed) :
    ofWords? instruction.words = some instruction := by
  have segment (segment : Segment) := Segment.ofText?_eq_some.2 (Eq.refl segment.text)
  have number {value : Nat} (small : value < 65536) :=
    number?_eq_some.2 ⟨small, Eq.refl value.repr⟩
  have name {name : String} (isName : IsName name) := name?_eq_some.2 ⟨isName, Eq.refl name⟩
  cases instruction with
  | push => simp [words, ofWords?, segment, number wellFormed]
  | pop => simp [words, ofWords?, segment, number wellFormed]
  | operate operation => cases operation <;> rfl
  | label => simp [words, ofWords?, name wellFormed]
  | goto => simp [words, ofWords?, name wellFormed]
  | ifGoto => simp [words, ofWords?, name wellFormed]
  | call => simp [words, ofWords?, name wellFormed.1, number wellFormed.2]
  | function => simp [words, ofWords?, name wellFormed.1, number wellFormed.2]
  | ret => rfl

theorem words_of_ofWords? {line : List String} (read : ofWords? line = some instruction) :
    instruction.WellFormed ∧ instruction.words = line := by
  unfold ofWords? at read
  split at read
  all_goals
    simp only [Option.bind_eq_bind, Option.bind_eq_some_iff, Option.map_eq_some_iff,
      Option.pure_def, Option.some.injEq, Segment.ofText?_eq_some, Operation.ofText?_eq_some,
      number?_eq_some, name?_eq_some, reduceCtorEq] at read
  case h_1 | h_2 =>
    obtain ⟨segment, rfl, index, ⟨small, rfl⟩, rfl⟩ := read
    exact ⟨small, rfl⟩
  case h_3 | h_4 | h_5 =>
    obtain ⟨name, ⟨isName, rfl⟩, rfl⟩ := read
    exact ⟨isName, rfl⟩
  case h_6 | h_7 =>
    obtain ⟨name, ⟨isName, rfl⟩, count, ⟨small, rfl⟩, rfl⟩ := read
    exact ⟨⟨isName, small⟩, rfl⟩
  case h_8 =>
    subst read
    exact ⟨trivial, rfl⟩
  case h_9 =>
    obtain ⟨operation, rfl, rfl⟩ := read
    exact ⟨trivial, rfl⟩

theorem toList_text (instruction : Instruction) :
    instruction.text.toList = [' '].intercalate (instruction.words.map String.toList) := by
  cases instruction <;> simp [text, words, List.intercalate, toString]

theorem IsName.notMem (isName : IsName name) {cut : Char} (other : isNameChar cut = false) :
    cut ∉ name.toList := by
  intro member
  rw [isName.chars cut member] at other
  cases other

theorem notMem_repr {cut : Char} (other : isNameChar cut = false) (value : Nat) :
    cut ∉ value.repr.toList := by
  intro member
  rw [Nat.toList_repr] at member
  have digit : cut.isDigit = true := Nat.isDigit_of_mem_toDigits (by decide) (Nat.le_refl 10) member
  rw [isNameChar, Piece.isWordChar, digit, Bool.or_true] at other
  cases other

/-- Neither a blank nor a newline stands inside a word. -/
theorem WellFormed.notMem (wellFormed : instruction.WellFormed) {cut : Char}
    (blank : cut = ' ' ∨ cut = '\n') : ∀ word ∈ instruction.words, cut ∉ word.toList := by
  have other : isNameChar cut = false := by rcases blank with rfl | rfl <;> decide
  have segment (segment : Segment) : cut ∉ segment.text.toList := by
    cases segment <;> rcases blank with rfl | rfl <;> decide
  have number := notMem_repr other
  have first : ∀ word ∈ ["push", "pop", "label", "goto", "if-goto", "call", "function", "return"],
      cut ∉ word.toList := by
    rcases blank with rfl | rfl <;> decide
  cases instruction with
  | push | pop =>
    simp only [words, List.forall_mem_cons, segment, number, not_false_eq_true, true_and]
    exact ⟨first _ (by simp), List.forall_mem_nil _⟩
  | operate operation =>
    cases operation <;> rcases blank with rfl | rfl <;> decide
  | label | goto | ifGoto =>
    simp only [words, List.forall_mem_cons, wellFormed.notMem other, not_false_eq_true, true_and]
    exact ⟨first _ (by simp), List.forall_mem_nil _⟩
  | call | function =>
    simp only [words, List.forall_mem_cons, wellFormed.1.notMem other, number, not_false_eq_true,
      true_and]
    exact ⟨first _ (by simp), List.forall_mem_nil _⟩
  | ret => exact List.forall_mem_singleton.2 (first _ (by simp))

theorem words_ne_nil (instruction : Instruction) : instruction.words ≠ [] := by
  cases instruction <;> exact List.cons_ne_nil _ _

/-- The words of an instruction are those between the blanks of its text. -/
theorem WellFormed.lineWords_text (wellFormed : instruction.WellFormed) :
    lineWords instruction.text = instruction.words := by
  rw [lineWords, toList_text, List.splitOn_intercalate, List.map_map]
  · simp [Function.comp_def]
  · exact List.forall_mem_map.2 (wellFormed.notMem (.inl rfl))
  · exact fun none => instruction.words_ne_nil (List.map_eq_nil_iff.1 none)

/-- A line is read as the one instruction that it is the text of. -/
theorem ofText?_eq_some :
    ofText? line = some instruction ↔ instruction.WellFormed ∧ instruction.text = line := by
  constructor
  · intro read
    obtain ⟨wellFormed, spelt⟩ := words_of_ofWords? read
    refine ⟨wellFormed, String.toList_injective ?_⟩
    rw [toList_text, spelt, lineWords, List.map_map]
    simp [Function.comp_def, List.intercalate_splitOn]
  · rintro ⟨wellFormed, rfl⟩
    rw [ofText?, wellFormed.lineWords_text, ofWords?_words wellFormed]

theorem WellFormed.newline_notMem (wellFormed : instruction.WellFormed) :
    '\n' ∉ instruction.text.toList := by
  intro member
  rw [toList_text] at member
  rcases mem_of_mem_intercalate member with same | ⟨part, isPart, inside⟩
  · cases same
  · obtain ⟨word, isWord, rfl⟩ := List.mem_map.1 isPart
    exact wellFormed.notMem (.inr rfl) word isWord inside

variable {code : List Instruction}

theorem join_lines (code : List Instruction) :
    String.join (code.map Instruction.line) =
      String.join ((code.map Instruction.text).map (· ++ "\n")) := by
  rw [List.map_map]
  rfl

/-- The lines of the text of instructions are their texts. -/
theorem textLines_lines (wellFormed : ∀ instruction ∈ code, instruction.WellFormed) :
    textLines (String.join (code.map Instruction.line)) = code.map Instruction.text := by
  rw [join_lines]
  exact textLines_join (List.forall_mem_map.2 fun instruction member =>
    (wellFormed instruction member).newline_notMem)

theorem mapM_ofText?_eq_some {lines : List String} : lines.mapM ofText? = some code ↔
    (∀ instruction ∈ code, instruction.WellFormed) ∧ code.map Instruction.text = lines := by
  induction lines generalizing code with
  | nil => cases code <;> simp
  | cons line lines ih =>
    simp only [List.mapM_cons, Option.bind_eq_bind, Option.bind_eq_some_iff, Option.pure_def,
      Option.some.injEq, ofText?_eq_some, ih]
    constructor
    · rintro ⟨instruction, ⟨first, rfl⟩, code, ⟨others, rfl⟩, rfl⟩
      exact ⟨List.forall_mem_cons.2 ⟨first, others⟩, rfl⟩
    · rintro ⟨wellFormed, spelt⟩
      obtain ⟨instruction, code, rfl, isFirst, isRest⟩ := List.map_eq_cons_iff.1 spelt
      obtain ⟨first, others⟩ := List.forall_mem_cons.1 wellFormed
      exact ⟨instruction, ⟨first, isFirst⟩, code, ⟨others, isRest⟩, rfl⟩

/-- Reading a text and writing instructions are inverse to each other. -/
theorem ofLines?_eq_some : ofLines? text = some code ↔
    (∀ instruction ∈ code, instruction.WellFormed) ∧
      String.join (code.map Instruction.line) = text := by
  unfold ofLines?
  constructor
  · intro read
    split at read
    · rename_i ends
      obtain ⟨wellFormed, spelt⟩ := mapM_ofText?_eq_some.1 read
      exact ⟨wellFormed, by rw [join_lines, spelt, join_textLines ends]⟩
    · cases read
  · rintro ⟨wellFormed, rfl⟩
    have whole : ∀ line ∈ code.map Instruction.text, '\n' ∉ line.toList :=
      List.forall_mem_map.2 fun instruction member =>
        (wellFormed instruction member).newline_notMem
    rw [if_pos, textLines_lines wellFormed]
    · exact mapM_ofText?_eq_some.2 ⟨wellFormed, rfl⟩
    · rw [join_lines, splitOn_join_lines whole, List.getLast?_concat]

end Instruction

end Jack
