import Jack.Proofs.Printing
import Jack.Proofs.Renaming
import Jack.Proofs.Writing
import Mathlib.Data.List.Nodup

namespace Jack

/-- One name instead of another. -/
def replace (old new name : String) : String :=
  if name = old then new else name

theorem replace_self (old new : String) : replace old new old = new :=
  if_pos rfl

theorem replace_of_ne {old new name : String} (other : name ≠ old) : replace old new name = name :=
  if_neg other

theorem replace_inj {old new first last : String} (isFirst : first ≠ new) (isLast : last ≠ new) :
    replace old new first = replace old new last ↔ first = last := by
  refine ⟨fun same => ?_, congrArg _⟩
  by_cases firstOld : first = old <;> by_cases lastOld : last = old
  · exact firstOld.trans lastOld.symm
  · rw [firstOld, replace_self, replace_of_ne lastOld] at same
    exact absurd same.symm isLast
  · rw [lastOld, replace_self, replace_of_ne firstOld] at same
    exact absurd same isFirst
  · rwa [replace_of_ne firstOld, replace_of_ne lastOld] at same

def Declaration.renamed (change : String → String) (declaration : Declaration) : Declaration :=
  { declaration with name := change declaration.name }

def Names.renamed (change : String → String) (names : Names) : Names :=
  { names with first := change names.first, more := names.more.map change }

def ClassVariables.renamed (change : String → String) (group : ClassVariables) : ClassVariables :=
  { group with names := group.names.renamed change }

def Parameter.renamed (change : String → String) (parameter : Parameter) : Parameter :=
  { parameter with name := change parameter.name }

/-- The subroutine with changed names for the variables that are written in it. -/
def Subroutine.renamed (change : String → String) (subroutine : Subroutine) : Subroutine :=
  { subroutine with
    parameters := subroutine.parameters.map (Parameter.renamed change)
    locals := subroutine.locals.map (Names.renamed change)
    body := subroutine.body.renamed change }

/-- What a subroutine declares itself. -/
def Subroutine.own (subroutine : Subroutine) : List String :=
  subroutine.parameters.map Parameter.name ++ subroutine.locals.flatMap Names.all

/-- Where a variable is declared: in a class, or in one of its subroutines. -/
inductive Home where
  | ofClass
  | ofSubroutine (place : Nat)

namespace ClassTree

/-- The variables that are declared somewhere in a class. -/
def variablesAt (tree : ClassTree) : Home → List String
  | .ofClass => tree.classVariables.flatMap fun group => group.names.all
  | .ofSubroutine place => (tree.subroutines[place]?).elim [] Subroutine.own

/-- The class with another name for one of its variables, where it is declared and wherever it is
referred to. A subroutine that declares the name itself does not refer to a variable of the class
by it, and a method has its object under the name `this`. -/
def renamed (tree : ClassTree) (old new : String) : Home → ClassTree
  | .ofClass =>
    { tree with
      classVariables := tree.classVariables.map (ClassVariables.renamed (replace old new))
      subroutines := tree.subroutines.map fun subroutine =>
        if old ∈ (subroutine.declarations tree.name).map Declaration.name then subroutine
        else { subroutine with body := subroutine.body.renamed (replace old new) } }
  | .ofSubroutine place =>
    { tree with
      subroutines := tree.subroutines.modify place (Subroutine.renamed (replace old new)) }

end ClassTree

namespace Declaration

variable {declarations : List Declaration} {old new name : String}

theorem count_renamed (change : String → String) (kind : VarKind)
    (declarations : List Declaration) :
    count kind (declarations.map (renamed change)) = count kind declarations := by
  rw [count, count, List.countP_map]
  rfl

theorem names_renamed (change : String → String) (declarations : List Declaration) :
    (declarations.map (renamed change)).map Declaration.name =
      (declarations.map Declaration.name).map change := by
  rw [List.map_map, List.map_map]
  rfl

theorem accepted_renamed (accepted : Accepted declarations)
    (fresh : new ∉ declarations.map Declaration.name) :
    Accepted (declarations.map (renamed (replace old new))) := by
  refine ⟨?_, fun kind => ?_⟩
  · rw [names_renamed]
    refine List.Nodup.map_on (fun first isFirst last isLast same => ?_) accepted.distinct
    have firstNotNew : first ≠ new := fun isNew => fresh (isNew ▸ isFirst)
    have lastNotNew : last ≠ new := fun isNew => fresh (isNew ▸ isLast)
    exact (replace_inj firstNotNew lastNotNew).1 same
  · rw [count_renamed]
    exact accepted.within kind

/-- Under its new name a variable is found as it was under the old one. -/
theorem find?_renamed (old : String) (distinct : (declarations.map Declaration.name).Nodup)
    (fresh : new ∉ declarations.map Declaration.name) (notNew : name ≠ new) :
    find? (declarations.map (renamed (replace old new))) (replace old new name) =
      find? declarations name := by
  induction declarations using List.reverseRecOn with
  | nil => rfl
  | append_singleton declarations last ih =>
    obtain ⟨distinctFront, freshLast⟩ := (nodup_append_singleton declarations last).1 distinct
    rw [List.map_append, List.mem_append, not_or] at fresh
    obtain ⟨notFront, notLast⟩ := fresh
    have lastNotNew : last.name ≠ new := fun isNew => notLast (List.mem_singleton.2 isNew.symm)
    have freshRenamed : (last.renamed (replace old new)).name ∉
        (declarations.map (renamed (replace old new))).map Declaration.name := by
      rw [names_renamed]
      intro member
      obtain ⟨other, isOther, same⟩ := List.mem_map.1 member
      have otherNotNew : other ≠ new := fun isNew => notFront (isNew ▸ isOther)
      exact freshLast ((replace_inj otherNotNew lastNotNew).1 same ▸ isOther)
    rw [List.map_append, List.map_singleton, find?_append_singleton freshRenamed,
      find?_append_singleton freshLast, ih distinctFront notFront, count_renamed]
    have sameName : (last.renamed (replace old new)).name = replace old new name ↔
        last.name = name := replace_inj lastNotNew notNew
    by_cases isLast : last.name = name
    · rw [if_pos (sameName.2 isLast), if_pos isLast]
      rfl
    · rw [if_neg fun same => isLast (sameName.1 same), if_neg isLast]

theorem isSome_find?_of_mem (member : name ∈ declarations.map Declaration.name) :
    (find? declarations name).isSome = true := by
  obtain ⟨declaration, isOne, rfl⟩ := List.mem_map.1 member
  rw [isSome_find?, List.any_eq_true]
  exact ⟨declaration, isOne, decide_eq_true rfl⟩

theorem find?_eq_none_of_not_mem (absent : name ∉ declarations.map Declaration.name) :
    find? declarations name = none := by
  rw [← Option.not_isSome_iff_eq_none, isSome_find?, List.any_eq_true]
  rintro ⟨declaration, isOne, named⟩
  exact absent (List.mem_map.2 ⟨declaration, isOne, of_decide_eq_true named⟩)

end Declaration

theorem Names.declarations_renamed (change : String → String) (kind : VarKind) (names : Names) :
    (names.renamed change).declarations kind =
      (names.declarations kind).map (Declaration.renamed change) := by
  have all : (names.renamed change).all = names.all.map change := rfl
  rw [declarations, declarations, all, List.map_map, List.map_map]
  rfl

theorem ClassTree.declarations_renamed (change : String → String) (groups : List ClassVariables) :
    ((groups.map (ClassVariables.renamed change)).flatMap fun group =>
        group.names.declarations group.kind.varKind) =
      (groups.flatMap fun group => group.names.declarations group.kind.varKind).map
        (Declaration.renamed change) := by
  rw [List.flatMap_map, List.map_flatMap]
  exact List.flatMap_congr fun group _ => Names.declarations_renamed change _ group.names

namespace Subroutine

variable {className : String} {subroutine : Subroutine} {old new : String}

/-- The names of what a subroutine declares: its object, and what is written in it. -/
theorem names_declarations (className : String) (subroutine : Subroutine) :
    (subroutine.declarations className).map Declaration.name =
      (subroutine.kind.object className).map Declaration.name ++ subroutine.own := by
  rw [declarations, List.map_append, List.map_append, List.append_assoc, own, List.map_map,
    List.map_flatMap]
  simp only [Names.declarations, List.map_map]
  congr 2
  exact List.flatMap_congr fun names _ => List.map_id _

/-- The object of a method keeps its name, since no other variable of the method has it. -/
theorem declarations_renamed (distinct : ((subroutine.declarations className).map
    Declaration.name).Nodup) (isOwn : old ∈ subroutine.own) :
    (subroutine.renamed (replace old new)).declarations className =
      (subroutine.declarations className).map (Declaration.renamed (replace old new)) := by
  have object : (subroutine.kind.object className).map (Declaration.renamed (replace old new)) =
      subroutine.kind.object className := by
    rw [names_declarations, List.nodup_append] at distinct
    cases kind : subroutine.kind with
    | method =>
      rw [kind] at distinct
      have notOld : "this" ≠ old := distinct.2.2 "this" (List.mem_singleton_self _) old isOwn
      rw [SubroutineKind.object, List.map_singleton, Declaration.renamed, replace_of_ne notOld]
    | _ => rfl
  rw [declarations, declarations, List.map_append, List.map_append, object, renamed,
    List.map_map, List.map_map, List.flatMap_map, List.map_flatMap]
  congr 1
  exact List.flatMap_congr fun names _ => Names.declarations_renamed _ _ names

/-- What a name stands for in a subroutine. -/
theorem lookup?_environment (className : String) (classVariables : List Declaration)
    (subroutine : Subroutine) (name : String) :
    (subroutine.environment className classVariables).lookup? name =
      (Declaration.find? (subroutine.declarations className) name).or
        (Declaration.find? classVariables name) :=
  rfl

/-- A subroutine in the place of another one, in a class with other declarations: it is as good,
and comes to the same code. -/
structure Mirrors (className : String) (classVariables others : List Declaration)
    (change : String → String) (subroutine other : Subroutine) : Prop where
  valid : other.Valid className others
  code : other.code className others = subroutine.code className classVariables
  depth : other.body.depth = subroutine.body.depth
  respells : Respells change subroutine.yield other.yield

variable {classVariables others : List Declaration}

theorem mirrors_of_agrees (change : String → String) {parameters : List Parameter}
    {locals : List Names}
    (valid : subroutine.Valid className classVariables)
    (accepted : Declaration.Accepted
      (declarations className { subroutine with parameters, locals }))
    (sameLocals : localCount className { subroutine with parameters, locals } =
      subroutine.localCount className)
    (sameFields : Declaration.count .field others = Declaration.count .field classVariables)
    (agrees : (subroutine.environment className classVariables).Agrees
      (environment className others { subroutine with parameters, locals }).lookup? change
      subroutine.body.references)
    (spelt : Respells change subroutine.yield
      (yield { subroutine with parameters, locals, body := subroutine.body.renamed change })) :
    subroutine.Mirrors className classVariables others change
      { subroutine with parameters, locals, body := subroutine.body.renamed change } := by
  refine ⟨⟨accepted, ?_⟩, ?_, subroutine.body.depth_renamed change, spelt⟩
  · have body := valid.body
    rw [← declared_environment] at body ⊢
    exact (subroutine.body.valid_renamed agrees).2 body
  · have body := subroutine.body.code_renamed .zero agrees
    rw [code, code, ← body, ← sameLocals, sameFields]
    rfl

/-- Only the body is spelt in another way. -/
theorem respells_body (subroutine : Subroutine) (change : String → String) :
    Respells change subroutine.yield
      (yield { subroutine with body := subroutine.body.renamed change }) := by
  have body := (subroutine.body.respells change).before [.symbol .rightBrace]
  exact .same _ (.same _ (.same _ (.same _ ((Respells.refl change _).append
    (.same _ (.same _ ((Respells.refl change _).append body)))))))

end Subroutine

theorem Names.respells (change : String → String) (names : Names) :
    Respells change names.yield (names.renamed change).yield := by
  have more : Respells change (names.more.flatMap fun name => [.symbol .comma, .name name])
      ((names.more.map change).flatMap fun name => [.symbol .comma, .name name]) := by
    induction names.more with
    | nil => exact .refl change []
    | cons name more ih => exact .same _ (.name name ih)
  exact .same _ (.name _ (more.before _))

theorem Parameter.respellsAll (change : String → String) (parameters : List Parameter) :
    Respells change (Parameter.yieldAll parameters)
      (Parameter.yieldAll (parameters.map (Parameter.renamed change))) := by
  have more (parameters : List Parameter) :
      Respells change (parameters.flatMap fun parameter => .symbol .comma :: parameter.yield)
        ((parameters.map (Parameter.renamed change)).flatMap fun parameter =>
          .symbol .comma :: parameter.yield) := by
    induction parameters with
    | nil => exact .refl change []
    | cons parameter parameters ih => exact .same _ (.same _ (.name _ ih))
  cases parameters with
  | nil => exact .refl change []
  | cons first parameters => exact .same _ (.name _ (more parameters))

theorem Subroutine.respells (change : String → String) (subroutine : Subroutine) :
    Respells change subroutine.yield (subroutine.renamed change).yield := by
  have locals : Respells change
      (subroutine.locals.flatMap fun names => .keyword .kwVar :: names.yield)
      ((subroutine.locals.map (Names.renamed change)).flatMap fun names =>
        .keyword .kwVar :: names.yield) := by
    induction subroutine.locals with
    | nil => exact .refl change []
    | cons names locals ih => exact .same _ ((names.respells change).append ih)
  have body := (subroutine.body.respells change).before [.symbol .rightBrace]
  exact .same _ (.same _ (.same _ (.same _ ((Parameter.respellsAll change _).append
    (.same _ (.same _ (locals.append body)))))))

theorem ClassVariables.respells (change : String → String) (groups : List ClassVariables) :
    Respells change (groups.flatMap ClassVariables.yield)
      ((groups.map (ClassVariables.renamed change)).flatMap ClassVariables.yield) := by
  induction groups with
  | nil => exact .refl change []
  | cons group groups ih => exact .same _ ((group.names.respells change).append ih)

namespace Subroutine

variable {className : String} {classVariables others : List Declaration}
  {subroutine : Subroutine} {old new : String}

/-- A subroutine with another name for one of its own variables. -/
theorem mirrors_renamed (valid : subroutine.Valid className classVariables)
    (isOwn : old ∈ subroutine.own)
    (fresh : new ∉ (subroutine.declarations className).map Declaration.name)
    (unused : new ∉ subroutine.body.references) :
    subroutine.Mirrors className classVariables classVariables (replace old new)
      (subroutine.renamed (replace old new)) := by
  have declared : declarations className (subroutine.renamed (replace old new)) =
      (subroutine.declarations className).map (Declaration.renamed (replace old new)) :=
    declarations_renamed valid.accepted.distinct isOwn
  have isDeclared : old ∈ (subroutine.declarations className).map Declaration.name := by
    rw [names_declarations]
    exact List.mem_append_right _ isOwn
  have known := Declaration.isSome_find?_of_mem isDeclared
  refine mirrors_of_agrees (replace old new) valid ?_ ?_ rfl ?_ (subroutine.respells _)
  · exact declared ▸ Declaration.accepted_renamed valid.accepted fresh
  · exact (congrArg (Declaration.count .locals) declared).trans (Declaration.count_renamed ..)
  · intro name isUsed
    have notNew : name ≠ new := fun isNew => unused (isNew ▸ isUsed)
    have own : Declaration.find? ((subroutine.renamed (replace old new)).declarations className)
        (replace old new name) = Declaration.find? (subroutine.declarations className) name := by
      rw [declared]
      exact Declaration.find?_renamed old valid.accepted.distinct fresh notNew
    rw [lookup?_environment, lookup?_environment]
    by_cases isOld : name = old
    · subst isOld
      obtain ⟨found, isFound⟩ := Option.isSome_iff_exists.1 known
      refine ⟨?_, fun unknown => ?_⟩
      · refine (congrArg (Option.or · _) own).trans ?_
        rw [isFound, Option.some_or, Option.some_or]
      · rw [isFound, Option.some_or] at unknown
        cases unknown
    · refine ⟨(congrArg (Option.or · _) own).trans ?_, fun _ => replace_of_ne isOld⟩
      rw [replace_of_ne isOld]

/-- A subroutine that declares a name itself, where a variable of its class loses this name. -/
theorem mirrors_self (valid : subroutine.Valid className classVariables)
    (distinct : (classVariables.map Declaration.name).Nodup)
    (hidden : old ∈ (subroutine.declarations className).map Declaration.name)
    (fresh : new ∉ classVariables.map Declaration.name)
    (unused : new ∉ subroutine.body.references) :
    subroutine.Mirrors className classVariables
      (classVariables.map (Declaration.renamed (replace old new))) (replace old new)
      subroutine := by
  have known := Declaration.isSome_find?_of_mem hidden
  have fields := Declaration.count_renamed (replace old new) .field classVariables
  have mirrors := mirrors_of_agrees id valid valid.accepted rfl fields (fun name isUsed => ?_)
    (subroutine.respells_body id)
  · rw [subroutine.body.renamed_id] at mirrors
    exact ⟨mirrors.valid, mirrors.code, rfl, .refl _ _⟩
  · have notNew : name ≠ new := fun isNew => unused (isNew ▸ isUsed)
    refine ⟨?_, fun _ => rfl⟩
    rw [id, lookup?_environment, lookup?_environment]
    by_cases isOld : name = old
    · subst isOld
      obtain ⟨found, isFound⟩ := Option.isSome_iff_exists.1 known
      refine Eq.trans (b := some found) ?_ ?_
      · rw [isFound, Option.some_or]
      · rw [isFound, Option.some_or]
    · have others := Declaration.find?_renamed old distinct fresh notNew
      rw [replace_of_ne isOld] at others
      rw [others]

/-- A subroutine that refers to a variable of its class by its new name. -/
theorem mirrors_body (valid : subroutine.Valid className classVariables)
    (distinct : (classVariables.map Declaration.name).Nodup)
    (isDeclared : old ∈ classVariables.map Declaration.name)
    (notHidden : old ∉ (subroutine.declarations className).map Declaration.name)
    (fresh : new ∉ classVariables.map Declaration.name)
    (freshInside : new ∉ (subroutine.declarations className).map Declaration.name)
    (unused : new ∉ subroutine.body.references) :
    subroutine.Mirrors className classVariables
      (classVariables.map (Declaration.renamed (replace old new))) (replace old new)
      { subroutine with body := subroutine.body.renamed (replace old new) } := by
  have known := Declaration.isSome_find?_of_mem isDeclared
  have fields := Declaration.count_renamed (replace old new) .field classVariables
  refine mirrors_of_agrees (replace old new) valid valid.accepted rfl fields (fun name isUsed => ?_)
    (subroutine.respells_body _)
  have notNew : name ≠ new := fun isNew => unused (isNew ▸ isUsed)
  have outside := Declaration.find?_renamed old distinct fresh notNew
  rw [lookup?_environment, lookup?_environment, outside]
  by_cases isOld : name = old
  · subst isOld
    have noNew := Declaration.find?_eq_none_of_not_mem freshInside
    have noOld := Declaration.find?_eq_none_of_not_mem notHidden
    obtain ⟨found, isFound⟩ := Option.isSome_iff_exists.1 known
    refine ⟨?_, fun unknown => ?_⟩
    · rw [replace_self, noOld]
      exact congrArg (Option.or · _) noNew
    · rw [noOld, isFound, Option.none_or] at unknown
      cases unknown
  · refine ⟨?_, fun _ => replace_of_ne isOld⟩
    rw [replace_of_ne isOld]

end Subroutine

theorem ClassTree.names_declarations (tree : ClassTree) :
    tree.declarations.map Declaration.name = tree.variablesAt .ofClass := by
  rw [declarations, variablesAt, List.map_flatMap]
  refine List.flatMap_congr fun group _ => ?_
  rw [Names.declarations, List.map_map]
  exact List.map_id _

/-- A name that is spelt nowhere in a class. -/
structure ClassTree.Unused (tree : ClassTree) (new : String) : Prop where
  outside : new ∉ tree.declarations.map Declaration.name
  inside : ∀ subroutine ∈ tree.subroutines,
    new ∉ (subroutine.declarations tree.name).map Declaration.name ∧
      new ∉ subroutine.body.references

theorem Names.mem_yield {names : Names} {name : String} (member : name ∈ names.all) :
    .name name ∈ names.yield := by
  rcases List.mem_cons.1 member with rfl | isMore
  · simp [yield]
  · simp [yield, isMore]

theorem Parameter.mem_yieldAll {parameters : List Parameter} {parameter : Parameter}
    (member : parameter ∈ parameters) : .name parameter.name ∈ Parameter.yieldAll parameters := by
  cases parameters with
  | nil => cases member
  | cons first parameters =>
    rcases List.mem_cons.1 member with rfl | isMore
    · simp [yieldAll, yield]
    · have inside : ∃ other ∈ parameters, Terminal.name parameter.name ∈ other.yield :=
        ⟨parameter, isMore, by simp [yield]⟩
      simp [yieldAll, inside]

theorem Subroutine.mem_yield {subroutine : Subroutine} {name : String}
    (member : name ∈ subroutine.own ∨ name ∈ subroutine.body.references) :
    .name name ∈ subroutine.yield := by
  rcases member with isOwn | isUsed
  · rcases List.mem_append.1 isOwn with isParameter | isLocal
    · obtain ⟨parameter, isOne, rfl⟩ := List.mem_map.1 isParameter
      have inside := Parameter.mem_yieldAll isOne
      simp [yield, inside]
    · obtain ⟨names, isOne, isName⟩ := List.mem_flatMap.1 isLocal
      have inside : ∃ names ∈ subroutine.locals, Terminal.name name ∈ names.yield :=
        ⟨names, isOne, Names.mem_yield isName⟩
      simp [yield, inside]
  · have inside := subroutine.body.mem_yield name isUsed
    simp [yield, inside]

theorem ClassTree.unused_of_not_mem {tree : ClassTree} {new : String} (notThis : new ≠ "this")
    (absent : .name new ∉ tree.yield) : tree.Unused new := by
  refine ⟨fun member => absent ?_, fun subroutine isOne => ⟨fun member => ?_, fun isUsed => ?_⟩⟩
  · rw [names_declarations] at member
    obtain ⟨group, isOne, isName⟩ := List.mem_flatMap.1 member
    have inside : ∃ group ∈ tree.classVariables, Terminal.name new ∈ group.yield :=
      ⟨group, isOne, List.mem_cons_of_mem _ (Names.mem_yield isName)⟩
    simp [yield, inside]
  · rw [Subroutine.names_declarations, List.mem_append] at member
    rcases member with isObject | isOwn
    · cases kind : subroutine.kind <;> rw [kind] at isObject
      case method => exact notThis (List.mem_singleton.1 isObject)
      all_goals cases isObject
    · have inside : ∃ subroutine ∈ tree.subroutines, Terminal.name new ∈ subroutine.yield :=
        ⟨subroutine, isOne, Subroutine.mem_yield (.inl isOwn)⟩
      exact absent (by simp [yield, inside])
  · have inside : ∃ subroutine ∈ tree.subroutines, Terminal.name new ∈ subroutine.yield :=
      ⟨subroutine, isOne, Subroutine.mem_yield (.inr isUsed)⟩
    exact absent (by simp [yield, inside])

/-- A class in the place of another one: it is as good, and comes to the same code. -/
structure ClassTree.Mirrors (change : String → String) (tree other : ClassTree) : Prop where
  name : other.name = tree.name
  accepted : Declaration.Accepted other.declarations
  each : List.Forall₂ (Subroutine.Mirrors tree.name tree.declarations other.declarations change)
    tree.subroutines other.subroutines
  respells : Respells change tree.yield other.yield

namespace ClassTree.Mirrors

variable {change : String → String} {tree other : ClassTree} (mirrors : tree.Mirrors change other)

include mirrors

theorem valid : other.Valid := by
  refine ⟨mirrors.accepted, ?_⟩
  rw [mirrors.name]
  have each := mirrors.each
  generalize tree.subroutines = mine, other.subroutines = theirs at each
  induction each with
  | nil => exact List.forall_mem_nil _
  | cons first _ ih => exact List.forall_mem_cons.2 ⟨first.valid, ih⟩

theorem code : other.code = tree.code := by
  rw [ClassTree.code, ClassTree.code, mirrors.name]
  have each := mirrors.each
  generalize tree.subroutines = mine, other.subroutines = theirs at each
  induction each with
  | nil => rfl
  | cons first _ ih => rw [List.flatMap_cons, List.flatMap_cons, first.code, ih]

theorem depth : other.depth = tree.depth := by
  rw [ClassTree.depth, ClassTree.depth]
  have each := mirrors.each
  generalize tree.subroutines = mine, other.subroutines = theirs at each
  induction each with
  | nil => rfl
  | cons first _ ih => rw [List.map_cons, List.map_cons, List.foldr_cons, List.foldr_cons,
      first.depth, ih]

end ClassTree.Mirrors

/-- Subroutines one of which is changed. -/
theorem Subroutine.forall₂_modify {related : Subroutine → Subroutine → Prop}
    {subroutines : List Subroutine} {place : Nat} {change : Subroutine → Subroutine}
    (kept : ∀ subroutine ∈ subroutines, related subroutine subroutine)
    (changed : ∀ subroutine, subroutines[place]? = some subroutine →
      related subroutine (change subroutine)) :
    List.Forall₂ related subroutines (subroutines.modify place change) := by
  induction subroutines generalizing place with
  | nil => cases place <;> exact .nil
  | cons first subroutines ih =>
    obtain ⟨keptFirst, keptOthers⟩ := List.forall_mem_cons.1 kept
    cases place with
    | zero =>
      rw [List.modify_zero_cons]
      exact .cons (changed first rfl) (List.forall₂_same.2 keptOthers)
    | succ place =>
      rw [List.modify_succ_cons]
      exact .cons keptFirst (ih keptOthers changed)

theorem ClassTree.respells_of_each {change : String → String} {tree other : ClassTree}
    {classVariables others : List Declaration} (sameName : other.name = tree.name)
    (front : Respells change (tree.classVariables.flatMap ClassVariables.yield)
      (other.classVariables.flatMap ClassVariables.yield))
    (each : List.Forall₂ (Subroutine.Mirrors tree.name classVariables others change)
      tree.subroutines other.subroutines) : Respells change tree.yield other.yield := by
  have subroutines : Respells change (tree.subroutines.flatMap Subroutine.yield)
      (other.subroutines.flatMap Subroutine.yield) := by
    generalize tree.subroutines = mine, other.subroutines = theirs at each
    induction each with
    | nil => exact .refl change []
    | cons first _ ih => exact first.respells.append ih
  rw [yield, yield, sameName]
  exact .same _ (.same _ (.same _ (front.append (subroutines.before _))))

namespace ClassTree

variable {tree : ClassTree} {old new : String}

theorem mirrors_ofClass (valid : tree.Valid) (declared : old ∈ tree.variablesAt .ofClass)
    (unused : tree.Unused new) :
    tree.Mirrors (replace old new) (tree.renamed old new .ofClass) := by
  rw [← names_declarations] at declared
  have declarations : (tree.renamed old new .ofClass).declarations =
      tree.declarations.map (Declaration.renamed (replace old new)) :=
    declarations_renamed _ _
  have each : List.Forall₂ (Subroutine.Mirrors tree.name tree.declarations
      (tree.renamed old new .ofClass).declarations (replace old new)) tree.subroutines
      (tree.renamed old new .ofClass).subroutines := by
    rw [declarations]
    refine List.forall₂_map_right_iff.2 (List.forall₂_same.2 fun subroutine isOne => ?_)
    obtain ⟨freshInside, notUsed⟩ := unused.inside subroutine isOne
    split
    · rename_i hidden
      exact Subroutine.mirrors_self (valid.subroutines subroutine isOne) valid.accepted.distinct
        hidden unused.outside notUsed
    · rename_i notHidden
      exact Subroutine.mirrors_body (valid.subroutines subroutine isOne) valid.accepted.distinct
        declared notHidden unused.outside freshInside notUsed
  exact ⟨rfl, declarations ▸ Declaration.accepted_renamed valid.accepted unused.outside, each,
    respells_of_each rfl (ClassVariables.respells _ _) each⟩

theorem mirrors_ofSubroutine {place : Nat} (valid : tree.Valid)
    (declared : old ∈ tree.variablesAt (.ofSubroutine place)) (unused : tree.Unused new) :
    tree.Mirrors (replace old new) (tree.renamed old new (.ofSubroutine place)) := by
  have each : List.Forall₂ (Subroutine.Mirrors tree.name tree.declarations tree.declarations
      (replace old new)) tree.subroutines
      (tree.renamed old new (.ofSubroutine place)).subroutines := by
    refine Subroutine.forall₂_modify (fun subroutine isOne => ?_) fun subroutine isAt => ?_
    · exact ⟨valid.subroutines subroutine isOne, rfl, rfl, .refl _ _⟩
    · have isOne : subroutine ∈ tree.subroutines := List.mem_of_getElem? isAt
      obtain ⟨fresh, notUsed⟩ := unused.inside subroutine isOne
      rw [variablesAt, isAt] at declared
      exact Subroutine.mirrors_renamed (valid.subroutines subroutine isOne) declared fresh notUsed
  exact ⟨rfl, valid.accepted, each, respells_of_each rfl (.refl _ _) each⟩

theorem mirrors_renamed {home : Home} (valid : tree.Valid)
    (declared : old ∈ tree.variablesAt home) (unused : tree.Unused new) :
    tree.Mirrors (replace old new) (tree.renamed old new home) := by
  cases home with
  | ofClass => exact mirrors_ofClass valid declared unused
  | ofSubroutine place => exact mirrors_ofSubroutine valid declared unused

end ClassTree

/-- What a token with a face stands for. -/
def Terminal.ofFace (face : Token.Kind × String × Option Literal) : Terminal :=
  Token.terminal ⟨face.1, face.2.1, face.2.2, ⟨0, 0⟩, 1, 1, 1⟩

/-- Whether a text is a name as it is written in a source text, which no keyword is. -/
def IsIdentifier (text : String) : Prop :=
  ∃ lexeme : Lexeme, lexeme.kind = .identifier ∧ String.ofList lexeme.text = text

theorem IsIdentifier.ne_keyword {text : String} (isName : IsIdentifier text) (word : Keyword) :
    text ≠ word.text := by
  obtain ⟨lexeme, kind, rfl⟩ := isName
  cases lexeme <;> cases kind
  rename_i first more isFirst isLetter notKeyword
  intro same
  exact notKeyword word ((congrArg String.toList same).symm.trans String.toList_ofList)

/-- Where some names of a source text are replaced by another one, a source text can be written that
spells this. -/
theorem exists_source {source old new : String} {terminals : List Terminal}
    (isName : IsIdentifier new)
    (respells : Respells (replace old new)
      ((Finding.tokens (Finding.ofSource source)).map Token.terminal) terminals) :
    ∃ other : String, (Finding.tokens (Finding.ofSource other)).map Token.terminal = terminals := by
  obtain ⟨fresh, isIdentifier, rfl⟩ := isName
  have freshTerminal : Terminal.ofFace fresh.face = .name (String.ofList fresh.text) := by
    rw [Terminal.ofFace, Lexeme.face, Token.terminal, isIdentifier]
  obtain ⟨lexemes, faces⟩ := (Scans.of_cut .start source.toList).exists_lexemes
  have spelt : (Finding.tokens (Finding.ofSource source)).map Token.terminal =
      lexemes.map fun lexeme => .ofFace lexeme.face := by
    have terminals := congrArg (List.map Terminal.ofFace) faces
    rw [List.map_map, List.map_map] at terminals
    exact terminals.symm
  rw [spelt] at respells
  have changed := List.forall₂_map_left_iff.1 respells
  have written : ∃ others : List Lexeme,
      (others.map fun lexeme => Terminal.ofFace lexeme.face) = terminals := by
    clear faces spelt respells
    induction changed with
    | nil => exact ⟨[], rfl⟩
    | @cons lexeme terminal _ _ renames _ ih =>
      obtain ⟨others, rfl⟩ := ih
      rcases renames with rfl | ⟨name, isName, rfl⟩
      · exact ⟨lexeme :: others, rfl⟩
      · by_cases isOld : name = old
        · subst isOld
          exact ⟨fresh :: others, by rw [List.map_cons, freshTerminal, replace_self]⟩
        · exact ⟨lexeme :: others, by rw [List.map_cons, isName, replace_of_ne isOld]⟩
  obtain ⟨others, rfl⟩ := written
  let printed := String.ofList (['\n'].intercalate (others.map Lexeme.text))
  have prints : Prints others printed.toList := by
    rw [String.toList_ofList]
    exact .lines others
  have found := congrArg (List.map Terminal.ofFace)
    (Finding.ofSource_undoes_printing.1 others printed prints).1
  rw [List.map_map, List.map_map] at found
  exact ⟨printed, found⟩

/-- If a variable of a class that is compiled gets a name that is spelt nowhere in the class,
wherever it is declared and referred to, then source texts can be written for the class with this
name. Each of them is compiled with the same result, and leaves the same in its sink. -/
theorem Compilation.ofSource_renamed {limit : Nat} {source : String} {sink : Sink}
    {summary : Summary} (compiled : (ofSource limit source sink).result = .ok summary) :
    ∃ tree : ClassTree,
      (Finding.tokens (Finding.ofSource source)).map Token.terminal = tree.yield ∧
      ∀ (home : Home) (old new : String), old ∈ tree.variablesAt home → IsIdentifier new →
        .name new ∉ tree.yield →
        Respells (replace old new) tree.yield (tree.renamed old new home).yield ∧
        (∃ other : String, (Finding.tokens (Finding.ofSource other)).map Token.terminal =
          (tree.renamed old new home).yield) ∧
        ∀ other : String, (Finding.tokens (Finding.ofSource other)).map Token.terminal =
            (tree.renamed old new home).yield →
          (ofSource limit other sink).result = .ok summary ∧
          (ofSource limit other sink).sink = (ofSource limit source sink).sink := by
  obtain ⟨tree, spelt, valid, within⟩ := exists_tree compiled
  refine ⟨tree, spelt, fun home old new declared isName absent => ?_⟩
  have unused := ClassTree.unused_of_not_mem (isName.ne_keyword .kwThis) absent
  have mirrors := ClassTree.mirrors_renamed valid declared unused
  refine ⟨mirrors.respells, exists_source isName (spelt ▸ mirrors.respells), ?_⟩
  intro other speltOther
  have withinOther : (tree.renamed old new home).depth ≤ limit := mirrors.depth ▸ within
  obtain ⟨generator, ends, name, subroutines, code⟩ :=
    ClassTree.ofTokens_eq valid within ⟨spelt, Finding.wellSpelt_of_ofSource⟩
  obtain ⟨later, endsOther, nameOther, subroutinesOther, codeOther⟩ :=
    ClassTree.ofTokens_eq mirrors.valid withinOther ⟨speltOther, Finding.wellSpelt_of_ofSource⟩
  have sameName : later.className = generator.className := by
    rw [nameOther, mirrors.name, name]
  have sameCount : later.subroutines = generator.subroutines := by
    rw [subroutinesOther, ← mirrors.each.length_eq, subroutines]
  have sameCode :
      (ClassCode.ofTokens limit (Finding.tokens (Finding.ofSource other))).instructions =
        (ClassCode.ofTokens limit (Finding.tokens (Finding.ofSource source))).instructions := by
    rw [codeOther, mirrors.code, code]
  obtain ⟨result, held⟩ := ofCode_congr sameCode ends endsOther sameName sameCount sink
  exact ⟨result.trans compiled, held⟩

/-- The counter with another name for its field. -/
def totalSource : String :=
  "class Counter {
 field int total;
 method void add(int steps) {
  while (steps) {let total = total + 1; let steps = steps - 1;}
  return;
 }
}"

theorem Compilation.ofSource_renamed_total : ∃ summary,
    (ofSource 2 counterSource .unlimited).result = .ok summary ∧
      (ofSource 2 totalSource .unlimited).result = .ok summary ∧
      (ofSource 2 totalSource .unlimited).sink = (ofSource 2 counterSource .unlimited).sink := by
  obtain ⟨summary, compiled⟩ := counterSource_compiled
  obtain ⟨tree, spelt, renames⟩ := ofSource_renamed compiled
  obtain rfl := ClassTree.yield_injective (spelt.symm.trans counterSource_spelt)
  have isName : IsIdentifier "total" :=
    ⟨.identifier 't' ['o', 't', 'a', 'l'] (by decide) (List.all_eq_true.1 (by decide))
      (by intro word; cases word <;> decide), rfl, rfl⟩
  obtain ⟨-, -, compiles⟩ := renames .ofClass "count" "total" (by decide) isName (by decide)
  exact ⟨summary, compiled, compiles totalSource (by decide +kernel)⟩

end Jack
