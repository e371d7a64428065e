import Jack.Proofs.Output
import Jack.Proofs.References
import Mathlib.Data.List.Forall2

namespace Jack

theorem VarKind.segment_injective {kind other : VarKind} (same : kind.segment = other.segment) :
    kind = other := by
  cases kind <;> cases other <;> first | rfl | cases same

namespace Declaration

variable {declarations : List Declaration}

/-- Which of the declarations a name stands for. -/
def place? (declarations : List Declaration) (name : String) : Option Nat :=
  declarations.findIdx? (·.name = name)

/-- The slot of a declared variable: the declarations of one kind share a segment, in order. -/
def slotAt (declarations : List Declaration) (place : Nat) : Option Slot :=
  declarations[place]?.map fun found =>
    (found.kind.segment, count found.kind (declarations.take place))

theorem slot_find? (declarations : List Declaration) (name : String) :
    (find? declarations name).map Variable.slot =
      (place? declarations name).bind (slotAt declarations) := by
  cases found : place? declarations name with
  | none =>
    have absent : declarations.find? (·.name = name) = none := by
      rw [List.find?_eq_bind_findIdx?_getElem?]
      exact congrArg (Option.bind · _) found
    rw [find?, absent]
    rfl
  | some place =>
    obtain ⟨within, index⟩ := List.findIdx?_eq_some_iff_findIdx_eq.1 found
    have named : declarations.find? (·.name = name) = declarations[place]? := by
      rw [List.find?_eq_bind_findIdx?_getElem?]
      exact congrArg (Option.bind · _) found
    have before : declarations.takeWhile (·.name ≠ name) = declarations.take place := by
      rw [List.takeWhile_eq_take_findIdx_not]
      simpa using congrArg (declarations.take ·) index
    rw [find?, named, before, Option.map_map]
    rfl

/-- A variable is numbered behind those of its kind that are declared before it, and in front of
those that are declared after it. -/
theorem exists_of_slotAt {place : Nat} {slot : Slot}
    (found : slotAt declarations place = some slot) :
    ∃ kind, slot = (kind.segment, count kind (declarations.take place)) ∧
      count kind (declarations.take place) < count kind (declarations.take (place + 1)) := by
  obtain ⟨declaration, isAt, rfl⟩ := Option.map_eq_some_iff.1 found
  refine ⟨declaration.kind, rfl, ?_⟩
  rw [List.take_add_one, isAt, count_append, Option.toList_some, count_singleton, if_pos rfl]
  exact Nat.lt_succ_self _

/-- Two variables do not share a slot. -/
theorem slotAt_injective {first last : Nat} {slot : Slot}
    (atFirst : slotAt declarations first = some slot)
    (atLast : slotAt declarations last = some slot) : first = last := by
  obtain ⟨kind, rfl, afterFirst⟩ := exists_of_slotAt atFirst
  obtain ⟨other, same, afterLast⟩ := exists_of_slotAt atLast
  obtain ⟨sameSegment, sameIndex⟩ := Prod.ext_iff.1 same
  obtain rfl : kind = other := VarKind.segment_injective sameSegment
  dsimp only at sameIndex
  have ordered {place later : Nat} (before : place < later) :
      count kind (declarations.take (place + 1)) ≤ count kind (declarations.take later) :=
    (List.take_prefix_take_left before).sublist.countP_le
  rcases Nat.lt_trichotomy first last with less | equal | greater
  · have between := ordered less
    omega
  · exact equal
  · have between := ordered greater
    omega

/-- Slots of variables are the same where the variables are. -/
theorem slots_eq_iff {slots : List Slot} {places : List Nat}
    (isSlots : slots.map some = places.map (slotAt declarations)) (first last : Nat) :
    slots[first]? = slots[last]? ↔ places[first]? = places[last]? := by
  have atPlace (index : Nat) :
      slots[index]?.map some = places[index]?.map (slotAt declarations) := by
    rw [← List.getElem?_map, isSlots, List.getElem?_map]
  have atFirst := atPlace first
  have atLast := atPlace last
  constructor
  · intro same
    rw [same, atLast] at atFirst
    cases isFirst : places[first]? with
    | none =>
      rw [isFirst, Option.map_none, Option.map_eq_none_iff] at atFirst
      exact atFirst.symm
    | some one =>
      rw [isFirst, Option.map_some] at atFirst
      obtain ⟨other, isLast, sameSlot⟩ := Option.map_eq_some_iff.1 atFirst
      rw [isLast, Option.map_some] at atLast
      obtain ⟨slot, -, isSlot⟩ := Option.map_eq_some_iff.1 atLast
      rw [isLast, slotAt_injective (sameSlot.symm.trans isSlot.symm) isSlot.symm]
  · intro same
    rw [same, ← atLast] at atFirst
    exact Option.map_injective (fun _ _ => Option.some.inj) atFirst

/-- Declarations behind others of different kinds are numbered as if they stood alone. -/
theorem find?_append {first last : List Declaration}
    (others : ∀ new ∈ last, count new.kind first = 0) (name : String) :
    find? (first ++ last) name = (find? first name).or (find? last name) := by
  cases found : first.find? (·.name = name) with
  | none =>
    have passed : ∀ declaration ∈ first, decide (declaration.name ≠ name) = true := by
      simpa using List.find?_eq_none.1 found
    have absent : find? first name = none := by rw [find?, found, Option.map_none]
    rw [absent, Option.none_or, find?, find?, List.find?_append, found, Option.none_or,
      List.takeWhile_append_of_pos passed]
    refine Option.map_congr fun new isNew => ?_
    rw [count_append, others new (List.mem_of_find?_eq_some isNew), Nat.zero_add]
  | some declaration =>
    have named : declaration.name = name := by simpa using List.find?_some found
    have stops : (first ++ last).takeWhile (·.name ≠ name) = first.takeWhile (·.name ≠ name) := by
      rw [List.takeWhile_append, if_neg]
      intro whole
      have all := List.takeWhile_eq_self_iff.1 ((List.takeWhile_prefix _).eq_of_length whole)
      simpa [named] using all declaration (List.mem_of_find?_eq_some found)
    rw [find?, find?, List.find?_append, found, stops]
    rfl

end Declaration

/-- Whether an instruction keeps to the words that each segment has. -/
def Instruction.Within (size : Segment → Option Nat) : Instruction → Prop
  | .push segment index | .pop segment index => ∀ bound ∈ size segment, index < bound
  | _ => True

namespace Subroutine

/-- What a subroutine of a class may refer to: its own variables, then those of the class. -/
def scope (tree : ClassTree) (subroutine : Subroutine) : List Declaration :=
  subroutine.declarations tree.name ++ tree.declarations

/-- The variables that the body of a subroutine refers to, each by its place in the scope. They are
in the order of the code. -/
def referenced (tree : ClassTree) (subroutine : Subroutine) : List Nat :=
  subroutine.body.references.filterMap (Declaration.place? (subroutine.scope tree))

/-- How many words of each segment a subroutine has, if it has this many local ones. There is no
bound on constants. -/
def size (tree : ClassTree) (subroutine : Subroutine) (locals : Nat) : Segment → Option Nat
  | .locals => some locals
  | .argument => some (subroutine.parameters.length + if subroutine.kind = .method then 1 else 0)
  | .statics => some (Declaration.count .statics tree.declarations)
  | .this => some (Declaration.count .field tree.declarations)
  | .that | .temp => some 1
  | .pointer => some 2
  | .constant => none

end Subroutine

/-- What the code of a function tells about its variables. It keeps to the words that it has, the
local ones being as many as its first line says, and behind what it opens with there is one access
for each reference to a variable. Two of these go to the same word exactly where the references
are to the same variable. -/
structure Framed (tree : ClassTree) (subroutine : Subroutine) (locals : Nat)
    (body part : List Instruction) : Prop where
  head : part = .function (tree.name ++ "." ++ subroutine.name) locals ::
    (subroutine.opening (Declaration.count .field tree.declarations) ++ body)
  within : ∀ instruction ∈ part, instruction.Within (subroutine.size tree locals)
  accesses : (accesses body).map some =
    (subroutine.referenced tree).map (Declaration.slotAt (subroutine.scope tree))
  apart : ∀ first last : Nat, (Jack.accesses body)[first]? = (Jack.accesses body)[last]? ↔
    (subroutine.referenced tree)[first]? = (subroutine.referenced tree)[last]?

variable {tree : ClassTree} {subroutine : Subroutine}

theorem ClassTree.isClassLevel_of_mem {declaration : Declaration}
    (member : declaration ∈ tree.declarations) : declaration.kind.isClassLevel = true := by
  obtain ⟨group, -, isOne⟩ := List.mem_flatMap.1 member
  obtain ⟨name, -, rfl⟩ := List.mem_map.1 isOne
  cases group.kind <;> rfl

namespace Subroutine

theorem isClassLevel_of_mem {className : String} {declaration : Declaration}
    (member : declaration ∈ subroutine.declarations className) :
    declaration.kind.isClassLevel = false := by
  rw [declarations, List.mem_append, List.mem_append] at member
  rcases member with (isObject | isParameter) | isLocal
  · cases kind : subroutine.kind <;> rw [kind] at isObject
    case method =>
      obtain rfl := List.mem_singleton.1 isObject
      rfl
    all_goals cases isObject
  · obtain ⟨parameter, -, rfl⟩ := List.mem_map.1 isParameter
    rfl
  · obtain ⟨names, -, isLocal⟩ := List.mem_flatMap.1 isLocal
    obtain ⟨name, -, rfl⟩ := List.mem_map.1 isLocal
    rfl

theorem count_scope (tree : ClassTree) (subroutine : Subroutine) (kind : VarKind) :
    Declaration.count kind (subroutine.scope tree) =
      Declaration.count kind
        (if kind.isClassLevel then tree.declarations else subroutine.declarations tree.name) := by
  rw [scope, Declaration.count_append]
  cases level : kind.isClassLevel with
  | true =>
    have noOwn : Declaration.count kind (subroutine.declarations tree.name) = 0 := by
      refine List.countP_eq_zero.2 fun declaration member isKind => ?_
      rw [← of_decide_eq_true isKind, isClassLevel_of_mem member] at level
      cases level
    rw [noOwn, Nat.zero_add, if_pos rfl]
  | false =>
    have noOther : Declaration.count kind tree.declarations = 0 := by
      refine List.countP_eq_zero.2 fun declaration member isKind => ?_
      rw [← of_decide_eq_true isKind, ClassTree.isClassLevel_of_mem member] at level
      cases level
    rw [noOther, Nat.add_zero, if_neg (by decide)]

theorem count_argument (className : String) (subroutine : Subroutine) :
    Declaration.count .argument (subroutine.declarations className) =
      subroutine.parameters.length + if subroutine.kind = .method then 1 else 0 := by
  have parameters : Declaration.count .argument
      (subroutine.parameters.map Parameter.declaration) = subroutine.parameters.length := by
    rw [← List.length_map Parameter.declaration]
    refine List.countP_eq_length.2 fun declaration member => ?_
    obtain ⟨parameter, -, rfl⟩ := List.mem_map.1 member
    rfl
  have noLocals : Declaration.count .argument
      (subroutine.locals.flatMap (Names.declarations .locals)) = 0 := by
    refine List.countP_eq_zero.2 fun declaration member => ?_
    obtain ⟨names, -, isLocal⟩ := List.mem_flatMap.1 member
    obtain ⟨name, -, rfl⟩ := List.mem_map.1 isLocal
    simp
  rw [declarations, Declaration.count_append, Declaration.count_append, parameters, noLocals,
    Nat.add_zero, Nat.add_comm]
  cases subroutine.kind <;> rfl

/-- The variables of each kind fill their segment. -/
theorem size_segment (tree : ClassTree) (subroutine : Subroutine) (kind : VarKind) :
    subroutine.size tree (subroutine.localCount tree.name) kind.segment =
      some (Declaration.count kind (subroutine.scope tree)) := by
  rw [count_scope]
  cases kind with
  | argument => exact congrArg some (count_argument tree.name subroutine).symm
  | _ => rfl

/-- A name stands for the variable that is found in the scope first. -/
theorem slot?_environment (tree : ClassTree) (subroutine : Subroutine) (name : String) :
    (subroutine.environment tree.name tree.declarations).slot? name =
      (Declaration.place? (subroutine.scope tree) name).bind
        (Declaration.slotAt (subroutine.scope tree)) := by
  have others : ∀ new ∈ tree.declarations,
      Declaration.count new.kind (subroutine.declarations tree.name) = 0 := by
    intro new member
    refine List.countP_eq_zero.2 fun declaration own isKind => ?_
    have level := isClassLevel_of_mem own
    rw [of_decide_eq_true isKind, ClassTree.isClassLevel_of_mem member] at level
    cases level
  rw [← Declaration.slot_find?, scope, Declaration.find?_append others]
  rfl

/-- Whatever a name stands for has a slot. -/
theorem slot?_map_some (tree : ClassTree) (subroutine : Subroutine) (name : String) :
    ((subroutine.environment tree.name tree.declarations).slot? name).map some =
      (Declaration.place? (subroutine.scope tree) name).map
        (Declaration.slotAt (subroutine.scope tree)) := by
  rw [slot?_environment]
  cases found : Declaration.place? (subroutine.scope tree) name with
  | none => rfl
  | some place =>
    obtain ⟨inside, -⟩ := List.findIdx?_eq_some_iff_getElem.1 found
    rw [Option.bind_some, Option.map_some, Declaration.slotAt, List.getElem?_eq_getElem inside]
    rfl

/-- No name leads out of the words that its segment has. -/
theorem lt_of_slot? {name : String} {slot : Slot} {bound : Nat}
    (found : (subroutine.environment tree.name tree.declarations).slot? name = some slot)
    (bounded : subroutine.size tree (subroutine.localCount tree.name) slot.1 = some bound) :
    slot.2 < bound := by
  rw [slot?_environment] at found
  obtain ⟨place, -, atPlace⟩ := Option.bind_eq_some_iff.1 found
  obtain ⟨kind, rfl, before⟩ := Declaration.exists_of_slotAt atPlace
  rw [size_segment] at bounded
  obtain rfl := Option.some.inj bounded
  have within : Declaration.count kind ((subroutine.scope tree).take (place + 1)) ≤
      Declaration.count kind (subroutine.scope tree) :=
    (List.take_sublist _ _).countP_le
  exact Nat.lt_of_lt_of_le before within

end Subroutine

theorem Instruction.within_of_slot? {locals : Nat} {instruction : Instruction}
    (orderly : instruction.isOrderly = true)
    (slots : ∀ slot, instruction.slot? = some slot → ∀ bound ∈ subroutine.size tree locals slot.1,
      slot.2 < bound) : instruction.Within (subroutine.size tree locals) := by
  have inside (segment : Segment) (index : Nat)
      (own : (Instruction.push segment index).isOrderly = true)
      (reads : ∀ slot, (Instruction.push segment index).slot? = some slot →
        ∀ bound ∈ subroutine.size tree locals slot.1, slot.2 < bound) :
      ∀ bound ∈ subroutine.size tree locals segment, index < bound := by
    intro bound bounded
    cases segment with
    | constant => cases bounded
    | that | temp =>
      obtain rfl := Option.some.inj bounded
      exact Nat.lt_succ_of_le (Nat.le_of_eq (eq_of_beq own))
    | pointer =>
      obtain rfl := Option.some.inj bounded
      exact Nat.lt_succ_of_le (of_decide_eq_true own)
    | _ => exact reads _ rfl bound bounded
  cases instruction with
  | push segment index => exact inside segment index orderly slots
  | pop segment index => exact inside segment index orderly slots
  | _ => trivial

theorem Subroutine.within_opening (locals : Nat) : ∀ instruction ∈
    subroutine.opening (Declaration.count .field tree.declarations),
    instruction.Within (subroutine.size tree locals) := by
  have pointer : (Instruction.pop .pointer 0).Within (subroutine.size tree locals) :=
    Instruction.within_of_slot? rfl fun _ noSlot => by cases noSlot
  intro instruction member
  cases kind : subroutine.kind with
  | function =>
    rw [opening, kind] at member
    cases member
  | method =>
    have object : (Instruction.push .argument 0).Within (subroutine.size tree locals) := by
      intro bound bounded
      rw [size, if_pos kind] at bounded
      obtain rfl := Option.some.inj bounded
      exact Nat.succ_pos _
    rw [opening, kind] at member
    rcases List.mem_cons.1 member with rfl | member
    · exact object
    · rwa [List.mem_singleton.1 member]
  | constructor =>
    rw [opening, kind] at member
    rcases List.mem_cons.1 member with rfl | member
    · intro bound bounded
      cases bounded
    rcases List.mem_cons.1 member with rfl | member
    · trivial
    · rwa [List.mem_singleton.1 member]

theorem Subroutine.framed_code (tree : ClassTree) (subroutine : Subroutine) :
    Framed tree subroutine (subroutine.localCount tree.name)
      (subroutine.body.code (subroutine.environment tree.name tree.declarations) .zero)
      (subroutine.code tree.name tree.declarations) := by
  have uses := subroutine.body.uses_code (subroutine.environment tree.name tree.declarations) .zero
  have accesses : (accesses (subroutine.body.code
        (subroutine.environment tree.name tree.declarations) .zero)).map some =
      (subroutine.referenced tree).map (Declaration.slotAt (subroutine.scope tree)) := by
    rw [uses.accesses, referenced, List.map_filterMap, List.map_filterMap]
    exact List.filterMap_congr fun name _ => slot?_map_some tree subroutine name
  refine ⟨rfl, ?_, accesses, ?_⟩
  · intro instruction member
    rcases List.mem_cons.1 member with rfl | member
    · trivial
    rcases List.mem_append.1 member with isOpening | isBody
    · exact within_opening _ instruction isOpening
    · refine Instruction.within_of_slot? (List.all_eq_true.1 uses.orderly instruction isBody) ?_
      intro slot isSlot bound bounded
      have accessed : slot ∈ Jack.accesses (subroutine.body.code
          (subroutine.environment tree.name tree.declarations) .zero) :=
        List.mem_filterMap.2 ⟨instruction, isBody, isSlot⟩
      rw [uses.accesses] at accessed
      obtain ⟨name, -, found⟩ := List.mem_filterMap.1 accessed
      exact lt_of_slot? found bounded
  · exact fun first last => Declaration.slots_eq_iff accesses first last

/-- Each function that is written for a source text belongs to one subroutine of its class, and
keeps to the frame of that subroutine. -/
theorem Compilation.ofSource_framed {limit : Nat} {source : String} {sink : Sink}
    {summary : Summary} (compiled : (ofSource limit source sink).result = .ok summary) :
    ∃ tree : ClassTree,
      (Finding.tokens (Finding.ofSource source)).map Token.terminal = tree.yield ∧
      (ofSource limit source sink).sink.held =
        sink.held ++ (ClassCode.ofSource limit source).text.toUTF8 ∧
      (functions (ClassCode.ofSource limit source).instructions).flatten =
        (ClassCode.ofSource limit source).instructions ∧
      List.Forall₂ (fun subroutine part => ∃ locals body, Framed tree subroutine locals body part)
        tree.subroutines (functions (ClassCode.ofSource limit source).instructions) := by
  obtain ⟨tree, spelt, valid, within⟩ := exists_tree compiled
  obtain ⟨generator, -, -, -, isCode⟩ :=
    ClassTree.ofTokens_eq valid within ⟨spelt, Finding.wellSpelt_of_ofSource⟩
  have parts : functions (ClassCode.ofSource limit source).instructions =
      tree.subroutines.map (Subroutine.code tree.name tree.declarations) :=
    (congrArg functions isCode).trans (Subroutine.functions_code tree.subroutines)
  refine ⟨tree, spelt, held_of_ofCode compiled, ?_, ?_⟩
  · rw [parts, ← List.flatMap_def]
    exact isCode.symm
  · rw [parts, List.forall₂_map_right_iff, List.forall₂_same]
    exact fun subroutine _ => ⟨_, _, subroutine.framed_code tree⟩

/-- A method with a parameter and a local variable that hide a field and a static one. -/
def hidingSource : String :=
  "class Point {
 field int x, y;
 static int made, sum;
 method int shift(int y, Point other) {
  var int sum;
  let sum = (x + y) + made;
  do other.shift(x, Point.first());
  let made = made + sum;
  return sum;
 }
 function Point first() {return sum;}
}"

theorem Compilation.ofSource_framed_hiding :
    (ofSource 4 hidingSource .unlimited).result = .ok ⟨"Point", 2, 23⟩ ∧
      ∃ tree : ClassTree,
        (Finding.tokens (Finding.ofSource hidingSource)).map Token.terminal = tree.yield ∧
        (ofSource 4 hidingSource .unlimited).sink.held =
          Sink.unlimited.held ++ (ClassCode.ofSource 4 hidingSource).text.toUTF8 ∧
        (functions (ClassCode.ofSource 4 hidingSource).instructions).flatten =
          (ClassCode.ofSource 4 hidingSource).instructions ∧
        List.Forall₂ (fun subroutine part => ∃ locals body, Framed tree subroutine locals body part)
          tree.subroutines (functions (ClassCode.ofSource 4 hidingSource).instructions) := by
  have compiled : (ofSource 4 hidingSource .unlimited).result = .ok ⟨"Point", 2, 23⟩ := by
    decide +kernel
  exact ⟨compiled, ofSource_framed compiled⟩

end Jack
