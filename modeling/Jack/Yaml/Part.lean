import Jack.Yaml.Lexeme

namespace Jack.Yaml

structure Scalar where
  style : Style
  tag : Option (List Nat)
  text : String
deriving DecidableEq, Repr

inductive Collection where
  | list
  | mapping
deriving DecidableEq, Repr

inductive Part (Name : Type) where
  | scalar (anchor : Option Name) (scalar : Scalar)
  /-- The same as the part with an anchor. -/
  | reference (target : Name)
  | opening (anchor : Option Name) (collection : Collection)
  | closing
deriving DecidableEq, Repr

/-- What stands where nothing is written. -/
def Part.empty {Name : Type} (anchor : Option Name) (tag : Option (List Nat)) : Part Name :=
  .scalar anchor ⟨.plain, tag, ""⟩

/-- Where a node stands: within brackets or braces, by lines, or by lines in a mapping, where the
items of a list need not stand further in than the key. -/
inductive Surroundings where
  | flow
  | lines
  | pair
deriving DecidableEq, Repr

/-- What still has to be read of a document. A goal either takes the next lexeme or does without
it, and in both cases it leaves goals of its own behind. -/
inductive Goal where
  | add (part : Part String)
  /-- A node, of which an anchor and a tag may be read already. -/
  | node (around : Surroundings) (anchor : Option String) (tag : Option (List Nat))
  /-- A node, or nothing before one of some lexemes. -/
  | optional (around : Surroundings) (ends : List Lexeme)
  /-- The items of a list by lines. -/
  | items
  /-- The items of a list by lines whose end is not marked. -/
  | looseItems
  /-- The keys of a mapping by lines, with their values. -/
  | pairs
  /-- The value of a key, if it has one. -/
  | value (around : Surroundings) (ends : List Lexeme)
  /-- What stands between brackets, from an element on or from what may stand behind one. -/
  | elements (begins : Bool)
  /-- The key of a pair that is an element itself. -/
  | elementKey
  /-- What stands between braces, from a key on or from what may stand behind a value. -/
  | members (begins : Bool)
deriving DecidableEq, Repr

namespace Goal

/-- What a goal adds to the document, and the goals that it leaves behind. -/
structure Step where
  parts : List (Part String)
  goals : List Goal
deriving DecidableEq, Repr

/-- What a node does with its first lexeme, if it can use it. By lines there are more forms. -/
def takeNode? (handles : Handles) (around : Surroundings) (anchor : Option String)
    (tag : Option (List Nat)) : Lexeme → Option Step
  | .reference name =>
    if anchor = none ∧ tag = none then some ⟨[.reference name], []⟩ else none
  | .anchor name => if anchor = none then some ⟨[], [.node around (some name) tag]⟩ else none
  | .tag short =>
    if tag = none then (short.resolve? handles).map fun tag => ⟨[], [.node around anchor tag]⟩
    else none
  | .scalar style text => some ⟨[.scalar anchor ⟨style, tag, text⟩], []⟩
  | .openList => some ⟨[.opening anchor .list], [.elements true]⟩
  | .openMapping => some ⟨[.opening anchor .mapping], [.members true]⟩
  | .openItems => if around = .flow then none else some ⟨[.opening anchor .list], [.items]⟩
  | .openPairs => if around = .flow then none else some ⟨[.opening anchor .mapping], [.pairs]⟩
  | _ => none

/-- What a goal does with the next lexeme if it can use it. A pair between brackets that begins
with its mark takes even the lexeme that shows its key to be missing. -/
def take? (handles : Handles) (lexeme : Lexeme) : Goal → Option Step
  | .add _ | .optional .. => none
  | .node around anchor tag => takeNode? handles around anchor tag lexeme
  | .items =>
    match lexeme with
    | .item => some ⟨[], [.optional .lines [.item, .outdent], .items]⟩
    | .outdent => some ⟨[.closing], []⟩
    | _ => none
  | .looseItems =>
    if lexeme = .item then
      some ⟨[], [.optional .lines [.item, .key, .value, .outdent], .looseItems]⟩
    else none
  | .pairs =>
    let ends := [.key, .value, .outdent]
    match lexeme with
    | .key => some ⟨[], [.optional .pair ends, .value .pair ends, .pairs]⟩
    | .outdent => some ⟨[.closing], []⟩
    | _ => none
  | .value around ends =>
    if lexeme = .value then some ⟨[], [.optional around ends]⟩ else none
  | .elements begins =>
    match lexeme with
    | .closeList => some ⟨[.closing], []⟩
    | .comma => if begins then none else some ⟨[], [.elements true]⟩
    | .key =>
      if begins then
        some ⟨[.opening none .mapping],
          [.elementKey, .value .flow [.comma, .closeList], .add .closing, .elements false]⟩
      else none
    | _ => none
  | .elementKey =>
    if lexeme ∈ [.value, .comma, .closeList] then some ⟨[.empty none none], []⟩ else none
  | .members begins =>
    match lexeme with
    | .closeMapping => some ⟨[.closing], []⟩
    | .comma => if begins then none else some ⟨[], [.members true]⟩
    | .key =>
      if begins then
        some ⟨[],
          [.optional .flow [.value, .comma, .closeMapping],
           .value .flow [.comma, .closeMapping], .members false]⟩
      else none
    | _ => none

/-- What a goal does without taking the next lexeme. -/
def leave? (next : Option Lexeme) : Goal → Option Step
  | .add part => some ⟨[part], []⟩
  | .node around anchor tag =>
    if around = .pair ∧ next = some .item then some ⟨[.opening anchor .list], [.looseItems]⟩
    else if anchor ≠ none ∨ tag ≠ none then some ⟨[.empty anchor tag], []⟩
    else none
  | .optional around ends =>
    if next.any (· ∈ ends) then some ⟨[.empty none none], []⟩
    else some ⟨[], [.node around none none]⟩
  | .items | .pairs => none
  | .looseItems => some ⟨[.closing], []⟩
  | .value .. => some ⟨[.empty none none], []⟩
  | .elements begins => if begins then some ⟨[], [.node .flow none none, .elements false]⟩ else none
  | .elementKey => some ⟨[], [.node .flow none none]⟩
  | .members begins =>
    if begins then
      some ⟨[], [.node .flow none none, .add (.empty none none), .members false]⟩
    else none

/-- How many goals can come out of one before a lexeme is taken. -/
def weight : Goal → Nat
  | .node .. => 2
  | .optional .. | .elementKey => 3
  | .elements true => 4
  | .members true => 5
  | _ => 1

def totalWeight : List Goal → Nat
  | [] => 0
  | goal :: goals => goal.weight + totalWeight goals

theorem totalWeight_cons (goal : Goal) (goals : List Goal) :
    totalWeight (goal :: goals) = goal.weight + totalWeight goals :=
  rfl

theorem totalWeight_append (first last : List Goal) :
    totalWeight (first ++ last) = totalWeight first + totalWeight last := by
  induction first with
  | nil => exact (Nat.zero_add _).symm
  | cons goal goals ih => rw [List.cons_append, totalWeight, totalWeight, ih, Nat.add_assoc]

/-- More than the weight of the goals that taking a lexeme leaves behind. -/
def takeWeight : Nat := 8

theorem totalWeight_takeNode? {handles : Handles} {around : Surroundings}
    {anchor : Option String} {tag : Option (List Nat)} {lexeme : Lexeme} {step : Step}
    (took : takeNode? handles around anchor tag lexeme = some step) :
    totalWeight step.goals < takeWeight := by
  unfold takeNode? at took
  split at took
  case h_3 =>
    split at took
    · obtain ⟨name, -, rfl⟩ := Option.map_eq_some_iff.1 took
      simp [totalWeight, weight, takeWeight]
    · simp at took
  all_goals
    repeat' split at took
  all_goals
    simp only [Option.some.injEq, reduceCtorEq] at took
  all_goals
    subst took
    simp [totalWeight, weight, takeWeight]

theorem totalWeight_take? {handles : Handles} {lexeme : Lexeme} {goal : Goal} {step : Step}
    (took : goal.take? handles lexeme = some step) : totalWeight step.goals < takeWeight := by
  cases goal <;> simp only [take?] at took
  case node => exact totalWeight_takeNode? took
  all_goals
    repeat' split at took
  all_goals
    simp only [Option.some.injEq, reduceCtorEq] at took
  all_goals
    subst took
    simp [totalWeight, weight, takeWeight]

theorem totalWeight_leave? {next : Option Lexeme} {goal : Goal} {step : Step}
    (left : goal.leave? next = some step) : totalWeight step.goals < goal.weight := by
  cases goal <;> simp only [leave?] at left
  all_goals
    repeat' split at left
  all_goals
    simp only [Option.some.injEq, reduceCtorEq] at left
  all_goals
    subst left
    simp_all [totalWeight, weight]

/-- Meets goals one after the other, behind the parts already read. What is left of the lexemes
then comes with the parts. -/
def read? (handles : Handles) (found : Array (Part String)) :
    List Goal → List Lexeme → Option (Array (Part String) × List Lexeme)
  | [], lexemes => some (found, lexemes)
  | goal :: goals, [] =>
    match _left : goal.leave? none with
    | none => none
    | some step => read? handles (found ++ step.parts) (step.goals ++ goals) []
  | goal :: goals, lexeme :: lexemes =>
    match _took : goal.take? handles lexeme with
    | some step => read? handles (found ++ step.parts) (step.goals ++ goals) lexemes
    | none =>
      match _left : goal.leave? (some lexeme) with
      | none => none
      | some step =>
        read? handles (found ++ step.parts) (step.goals ++ goals) (lexeme :: lexemes)
termination_by goals lexemes => lexemes.length * takeWeight + totalWeight goals
decreasing_by
  · have := totalWeight_leave? _left
    rw [totalWeight_append, totalWeight_cons]
    omega
  · have := totalWeight_take? _took
    rw [totalWeight_append, totalWeight_cons, List.length_cons, Nat.succ_mul]
    omega
  · have := totalWeight_leave? _left
    rw [totalWeight_append, totalWeight_cons]
    omega

end Goal

end Jack.Yaml
