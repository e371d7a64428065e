import Jack.Proofs.Declarations
import Mathlib.Data.List.Forall2

namespace Jack

/-- What can be asked of a scope. -/
inductive ScopeQuery where
  | lookup (name : String)
  | indexOf (name : String)
  | typeOf (name : String)
  | kindOf (name : String)
  | count (kind : VarKind)
deriving DecidableEq, Repr

/-- What can be done with a scope inside others. It is the innermost scope that takes declarations
and forgets them, and each scope around it may be asked. -/
inductive ScopeRequest where
  | define (name type : String) (kind : VarKind)
  | ask (outwards : Nat) (query : ScopeQuery)
  | reset
  | enter
  | leave
deriving DecidableEq, Repr

inductive ScopeReply where
  | declared (index : Nat)
  | refused (error : ScopeError)
  | found (held : Option Variable)
  | index (index : Option Nat)
  | type (type : Option String)
  | kind (kind : Option VarKind)
  | count (count : Nat)
  | absent
  | done
deriving DecidableEq, Repr

/-- Scopes inside each other, whatever they are kept in. -/
structure ScopeTable (σ : Type) where
  define : σ → String → String → VarKind → Except ScopeError σ
  lookup? : σ → String → Option Variable
  count : σ → VarKind → Nat
  reset : σ → σ
  enter : σ → σ
  leave? : σ → Option σ

namespace ScopeTable

variable {σ : Type} (table : ScopeTable σ)

/-- The scope that lies this many scopes outwards. -/
def ancestor? (state : σ) : Nat → Option σ
  | 0 => some state
  | outwards + 1 => (table.leave? state).bind (ancestor? · outwards)

def answer (state : σ) : ScopeQuery → ScopeReply
  | .lookup name => .found (table.lookup? state name)
  | .indexOf name => .index ((table.lookup? state name).map Variable.index)
  | .typeOf name => .type ((table.lookup? state name).map Variable.type)
  | .kindOf name => .kind ((table.lookup? state name).map Variable.kind)
  | .count kind => .count (table.count state kind)

/-- A declaration is answered with the number of those of its kind before it. The outermost scope
is never left. -/
def perform (state : σ) : ScopeRequest → ScopeReply × σ
  | .define name type kind =>
    match table.define state name type kind with
    | .ok later => (.declared (table.count state kind), later)
    | .error error => (.refused error, state)
  | .ask outwards query =>
    ((table.ancestor? state outwards).elim .absent (table.answer · query), state)
  | .reset => (.done, table.reset state)
  | .enter => (.done, table.enter state)
  | .leave => (.done, (table.leave? state).getD state)

/-- The replies to some requests, and what the scopes are like in the end. -/
def run (state : σ) : List ScopeRequest → List ScopeReply × σ
  | [] => ([], state)
  | request :: requests =>
    ((table.perform state request).1 :: (run (table.perform state request).2 requests).1,
      (run (table.perform state request).2 requests).2)

theorem run_append (state : σ) (first last : List ScopeRequest) :
    table.run state (first ++ last) =
      ((table.run state first).1 ++ (table.run (table.run state first).2 last).1,
        (table.run (table.run state first).2 last).2) := by
  induction first generalizing state with
  | nil => rfl
  | cons request first ih => rw [List.cons_append, run, run, ih]; rfl

end ScopeTable

/-- The declarations that each of some scopes has accepted since it was last empty, in order. -/
structure Ledger where
  inner : List Declaration
  outer : List (List Declaration)
deriving DecidableEq, Repr

namespace Ledger

def ofClass : Ledger :=
  ⟨[], []⟩

def levels (ledger : Ledger) : List (List Declaration) :=
  ledger.inner :: ledger.outer

/-- Only the outermost scope takes variables of a class. A name is declared once in a scope, and a
scope takes no more than 65535 names of a kind. -/
def define (ledger : Ledger) (name type : String) (kind : VarKind) : Except ScopeError Ledger :=
  if kind.isClassLevel ≠ ledger.outer.isEmpty then .error (.wrongScope name kind)
  else if name ∈ ledger.inner.map Declaration.name then .error (.redefined name)
  else if Declaration.count kind ledger.inner = 65535 then .error (.tooMany name kind)
  else .ok { ledger with inner := ledger.inner ++ [⟨kind, type, name⟩] }

/-- A name stands for its declaration in the innermost scope that holds one. -/
def lookup? (ledger : Ledger) (name : String) : Option Variable :=
  ledger.levels.findSome? fun declarations => Declaration.find? declarations name

def table : ScopeTable Ledger where
  define := define
  lookup? := lookup?
  count ledger kind := Declaration.count kind ledger.inner
  reset ledger := { ledger with inner := [] }
  enter ledger := ⟨[], ledger.levels⟩
  leave? ledger :=
    match ledger.outer with
    | [] => none
    | inner :: outer => some ⟨inner, outer⟩

/-- The scopes that are filled by these declarations. -/
def scope (ledger : Ledger) : Scope :=
  ⟨.ofDeclarations ledger.inner, ledger.outer.map .ofDeclarations⟩

/-- All declarations of the scopes could be accepted in their order. -/
def Accepted (ledger : Ledger) : Prop :=
  ∀ declarations ∈ ledger.levels, Declaration.Accepted declarations

end Ledger

namespace Scope

def levels (scope : Scope) : List ScopeLevel :=
  scope.inner :: scope.outer

def table : ScopeTable Scope :=
  ⟨define, lookup?, count, reset, enter, leave?⟩

end Scope

namespace Ledger

variable {ledger : Ledger}

theorem levels_scope (ledger : Ledger) : ledger.scope.levels = ledger.levels.map .ofDeclarations :=
  rfl

theorem define_scope (accepted : ledger.Accepted) (name type : String) (kind : VarKind) :
    ledger.scope.define name type kind = (ledger.define name type kind).map scope := by
  have outer : ledger.scope.outer.isEmpty = ledger.outer.isEmpty := List.isEmpty_map
  by_cases level : kind.isClassLevel = ledger.outer.isEmpty
  · have within := (accepted ledger.inner List.mem_cons_self).within kind
    have full : 65535 ≤ Declaration.count kind ledger.inner ↔
        Declaration.count kind ledger.inner = 65535 :=
      ⟨fun many => Nat.le_antisymm within many, fun all => Nat.le_of_eq all.symm⟩
    have here : ledger.scope.define name type kind = _ :=
      Scope.define_ofDeclarations type name (level.trans outer.symm)
    rw [define, if_neg (not_not.2 level)]
    refine here.trans ?_
    simp only [full]
    split
    · rfl
    · split <;> rfl
  · have wrong : kind.isClassLevel = ledger.scope.isSubroutine := by
      rw [Scope.isSubroutine, outer]
      revert level
      cases kind.isClassLevel <;> cases ledger.outer.isEmpty <;> simp
    rw [define, if_pos level, Scope.define, if_pos wrong]
    rfl

theorem lookup?_scope (accepted : ledger.Accepted) (name : String) :
    ledger.scope.lookup? name = ledger.lookup? name := by
  show ledger.scope.levels.findSome? _ = _
  rw [levels_scope, List.findSome?_map, lookup?]
  unfold Accepted at accepted
  generalize ledger.levels = levels at accepted
  induction levels with
  | nil => rfl
  | cons declarations levels ih =>
    obtain ⟨own, others⟩ := List.forall_mem_cons.1 accepted
    have here := ScopeLevel.getElem?_ofDeclarations own.distinct name
    rw [List.findSome?_cons, List.findSome?_cons, Function.comp_apply, here, ih others]

theorem accepted_define {later : Ledger} {name type : String} {kind : VarKind}
    (accepted : ledger.Accepted) (defined : ledger.define name type kind = .ok later) :
    later.Accepted := by
  obtain ⟨own, others⟩ := List.forall_mem_cons.1 accepted
  unfold define at defined
  repeat' split at defined
  all_goals cases defined
  rename_i fresh room
  have less := Nat.lt_of_le_of_ne (own.within kind) room
  exact List.forall_mem_cons.2
    ⟨(Declaration.accepted_append_singleton ..).2 ⟨own, fresh, less⟩, others⟩

theorem ancestor?_scope (accepted : ledger.Accepted) (outwards : Nat) :
    Scope.table.ancestor? ledger.scope outwards = (table.ancestor? ledger outwards).map scope ∧
      ∀ there, table.ancestor? ledger outwards = some there → there.Accepted := by
  induction outwards generalizing ledger with
  | zero => exact ⟨rfl, fun there isThere => Option.some.inj isThere ▸ accepted⟩
  | succ outwards ih =>
    obtain ⟨inner, _ | ⟨next, outer⟩⟩ := ledger
    · exact ⟨rfl, fun there isThere => by cases isThere⟩
    · exact @ih ⟨next, outer⟩ (List.forall_mem_cons.1 accepted).2

theorem count_scope (ledger : Ledger) (kind : VarKind) :
    ledger.scope.count kind = Declaration.count kind ledger.inner :=
  ScopeLevel.get_counts_ofDeclarations ledger.inner kind

theorem answer_scope (accepted : ledger.Accepted) (query : ScopeQuery) :
    Scope.table.answer ledger.scope query = table.answer ledger query := by
  cases query <;>
    simp only [ScopeTable.answer, Scope.table, table, lookup?_scope accepted, count_scope]

/-- What scopes do is what their declarations say, and these can be accepted after it too. -/
theorem perform_scope (accepted : ledger.Accepted) (request : ScopeRequest) :
    Scope.table.perform ledger.scope request =
        ((table.perform ledger request).1, (table.perform ledger request).2.scope) ∧
      (table.perform ledger request).2.Accepted := by
  obtain ⟨own, others⟩ := List.forall_mem_cons.1 accepted
  cases request with
  | define name type kind =>
    have here := define_scope accepted name type kind
    cases defined : ledger.define name type kind with
    | error error =>
      rw [defined] at here
      simp only [ScopeTable.perform, Scope.table, table, here, defined, Except.map]
      exact ⟨trivial, accepted⟩
    | ok later =>
      rw [defined] at here
      simp only [ScopeTable.perform, Scope.table, table, here, defined, Except.map, count_scope]
      exact ⟨trivial, accepted_define accepted defined⟩
  | ask outwards query =>
    obtain ⟨same, later⟩ := ancestor?_scope accepted outwards
    rw [ScopeTable.perform, same]
    refine ⟨Prod.ext ?_ rfl, accepted⟩
    cases isThere : table.ancestor? ledger outwards with
    | none => rw [ScopeTable.perform, isThere]; rfl
    | some there =>
      rw [ScopeTable.perform, isThere]
      exact answer_scope (later there isThere) query
  | reset => exact ⟨rfl, List.forall_mem_cons.2 ⟨Declaration.accepted_nil, others⟩⟩
  | enter => exact ⟨rfl, List.forall_mem_cons.2 ⟨Declaration.accepted_nil, accepted⟩⟩
  | leave =>
    obtain ⟨inner, _ | ⟨next, outer⟩⟩ := ledger
    · exact ⟨rfl, accepted⟩
    · exact ⟨rfl, others⟩

theorem run_scope (accepted : ledger.Accepted) (requests : List ScopeRequest) :
    Scope.table.run ledger.scope requests =
        ((table.run ledger requests).1, (table.run ledger requests).2.scope) ∧
      (table.run ledger requests).2.Accepted := by
  induction requests generalizing ledger with
  | nil => exact ⟨rfl, accepted⟩
  | cons request requests ih =>
    obtain ⟨same, later⟩ := perform_scope accepted request
    obtain ⟨further, last⟩ := ih later
    refine ⟨?_, last⟩
    simp only [ScopeTable.run, same, further]

end Ledger

namespace Declaration

variable {declarations : List Declaration}

/-- A declaration stands for a variable that is numbered by those of its kind in front of it. -/
theorem find?_append_cons {before after : List Declaration} {declaration : Declaration}
    (distinct : ((before ++ declaration :: after).map name).Nodup) :
    find? (before ++ declaration :: after) declaration.name =
      some ⟨declaration.type, declaration.kind, count declaration.kind before⟩ := by
  have others : ∀ other ∈ before, other.name ≠ declaration.name := by
    intro other member same
    rw [List.map_append, List.map_cons, List.nodup_append] at distinct
    exact distinct.2.2 _ (List.mem_map_of_mem member) _ List.mem_cons_self same
  have found : (before ++ declaration :: after).find? (·.name = declaration.name) =
      some declaration := by
    have absent : before.find? (·.name = declaration.name) = none := by simpa using others
    simp [List.find?_append, absent]
  have passed :
      (before ++ declaration :: after).takeWhile (·.name ≠ declaration.name) = before := by
    rw [List.takeWhile_append_of_pos (by simpa using others)]
    simp
  rw [find?, found, passed]
  rfl

/-- Where the declarations of a kind are numbered from zero, each has as many of them in front of it
as its number says. -/
theorem exists_of_getElem?_filter {kind : VarKind} {index : Nat} {declaration : Declaration}
    (isAt : (declarations.filter (·.kind = kind))[index]? = some declaration) :
    ∃ before after, declarations = before ++ declaration :: after ∧ declaration.kind = kind ∧
      count kind before = index := by
  induction declarations generalizing index with
  | nil => cases isAt
  | cons first others ih =>
    rw [List.filter_cons] at isAt
    split at isAt <;> rename_i same
    · cases index with
      | zero =>
        obtain rfl := Option.some.inj isAt
        exact ⟨[], others, rfl, of_decide_eq_true same, rfl⟩
      | succ index =>
        obtain ⟨before, after, rfl, isKind, counted⟩ := ih isAt
        refine ⟨first :: before, after, rfl, isKind, ?_⟩
        rw [count, List.countP_cons, if_pos same]
        exact congrArg (· + 1) counted
    · obtain ⟨before, after, rfl, isKind, counted⟩ := ih isAt
      refine ⟨first :: before, after, rfl, isKind, ?_⟩
      rw [count, List.countP_cons, if_neg same]
      exact counted

theorem getElem?_filter_append_cons (before after : List Declaration) (declaration : Declaration) :
    ((before ++ declaration :: after).filter (·.kind = declaration.kind))[
      count declaration.kind before]? = some declaration := by
  rw [count, List.countP_eq_length_filter, List.filter_append,
    List.getElem?_append_right le_rfl, Nat.sub_self, List.filter_cons, if_pos (by simp)]
  rfl

/-- A variable that a name stands for is the declaration of this name. -/
theorem exists_of_find? {name : String} {found : Variable}
    (isFound : find? declarations name = some found) :
    ∃ declaration : Declaration, declaration.name = name ∧ declaration.type = found.type ∧
      (declarations.filter (·.kind = found.kind))[found.index]? = some declaration := by
  obtain ⟨declaration, isFirst, rfl⟩ := Option.map_eq_some_iff.1 isFound
  obtain ⟨named, before, after, rfl, others⟩ := List.find?_eq_some_iff_append.1 isFirst
  have passed : (before ++ declaration :: after).takeWhile (·.name ≠ name) = before := by
    rw [List.takeWhile_append_of_pos (by simpa using others), List.takeWhile_cons_of_neg,
      List.append_nil]
    simpa using named
  refine ⟨declaration, of_decide_eq_true named, rfl, ?_⟩
  rw [passed]
  exact getElem?_filter_append_cons before after declaration

end Declaration

/-- A level of a table that holds some declarations and nothing else. -/
structure ScopeLevel.Lists (level : ScopeLevel) (declarations : List Declaration) : Prop where
  /-- The declarations of a kind are numbered from zero, in their order. -/
  numbered : ∀ kind index (declaration : Declaration),
    (declarations.filter (·.kind = kind))[index]? = some declaration →
      level.declared[declaration.name]? = some ⟨declaration.type, kind, index⟩
  held : ∀ (name type : String) (kind : VarKind) (index : Nat),
    level.declared[name]? = some ⟨type, kind, index⟩ →
      ∃ declaration : Declaration, declaration.name = name ∧ declaration.type = type ∧
        (declarations.filter (·.kind = kind))[index]? = some declaration
  /-- The numbers of a kind are those below its count, and each belongs to one name. -/
  dense : ∀ (kind : VarKind) (index : Nat), index < level.counts.get kind ↔
    ∃ name type : String, level.declared[name]? = some ⟨type, kind, index⟩
  apart : ∀ (first last type other : String) (kind : VarKind) (index : Nat),
    level.declared[first]? = some ⟨type, kind, index⟩ →
      level.declared[last]? = some ⟨other, kind, index⟩ → first = last
  counted : ∀ kind, level.counts.get kind = (declarations.filter (·.kind = kind)).length
  within : ∀ kind, level.counts.get kind ≤ 65535

theorem ScopeLevel.lists_ofDeclarations {declarations : List Declaration}
    (accepted : Declaration.Accepted declarations) :
    Lists (.ofDeclarations declarations) declarations := by
  have counted (kind : VarKind) : (ofDeclarations declarations).counts.get kind =
      (declarations.filter (·.kind = kind)).length :=
    (get_counts_ofDeclarations declarations kind).trans List.countP_eq_length_filter
  have numbered (kind : VarKind) (index : Nat) (declaration : Declaration)
      (isAt : (declarations.filter (·.kind = kind))[index]? = some declaration) :
      (ofDeclarations declarations).declared[declaration.name]? =
        some ⟨declaration.type, kind, index⟩ := by
    have distinct := accepted.distinct
    obtain ⟨before, after, rfl, rfl, rfl⟩ := Declaration.exists_of_getElem?_filter isAt
    rw [getElem?_ofDeclarations distinct, Declaration.find?_append_cons distinct]
  have held (name type : String) (kind : VarKind) (index : Nat)
      (isHeld : (ofDeclarations declarations).declared[name]? = some ⟨type, kind, index⟩) :
      ∃ declaration : Declaration, declaration.name = name ∧ declaration.type = type ∧
        (declarations.filter (·.kind = kind))[index]? = some declaration := by
    rw [getElem?_ofDeclarations accepted.distinct] at isHeld
    exact Declaration.exists_of_find? isHeld
  refine ⟨numbered, held, fun kind index => ⟨fun less => ?_, ?_⟩, ?_, counted, fun kind => ?_⟩
  · rw [counted] at less
    exact ⟨_, _, numbered kind index _ (List.getElem?_eq_getElem less)⟩
  · rintro ⟨name, type, isHeld⟩
    obtain ⟨declaration, -, -, isAt⟩ := held name type kind index isHeld
    rw [counted]
    exact (List.getElem?_eq_some_iff.1 isAt).1
  · intro first last type other kind index isFirst isLast
    obtain ⟨declaration, rfl, -, isAt⟩ := held first type kind index isFirst
    obtain ⟨same, rfl, -, isAtSame⟩ := held last other kind index isLast
    rw [Option.some.inj (isAt.symm.trans isAtSame)]
  · rw [get_counts_ofDeclarations]
    exact accepted.within kind

/-- How many scopes lie inside the one where the requests begin when they end, if they never leave
it. -/
def ScopeRequest.height? : Nat → List ScopeRequest → Option Nat
  | height, [] => some height
  | height, .enter :: requests => height? (height + 1) requests
  | 0, .leave :: _ => none
  | height + 1, .leave :: requests => height? height requests
  | height, _ :: requests => height? height requests

namespace Scope

variable {scope : Scope}

theorem outer_define {later : Scope} {name type : String} {kind : VarKind}
    (defined : scope.define name type kind = .ok later) : later.outer = scope.outer := by
  unfold define at defined
  repeat' split at defined
  all_goals cases defined
  rfl

/-- Requests that never leave a scope do not touch the scopes around it. -/
theorem levels_run {requests : List ScopeRequest} {front base : List ScopeLevel}
    {height reached : Nat} (isFront : scope.levels = front ++ base)
    (deep : front.length = height + 1)
    (inside : ScopeRequest.height? height requests = some reached) :
    ∃ added, added.length = reached + 1 ∧
      (table.run scope requests).2.levels = added ++ base := by
  induction requests generalizing scope front height with
  | nil =>
    obtain rfl := Option.some.inj inside
    exact ⟨front, deep, isFront⟩
  | cons request requests ih =>
    obtain _ | ⟨first, front⟩ := front
    · cases deep
    obtain ⟨rfl, around⟩ := List.cons.inj isFront
    -- only the innermost scope has changed
    have kept (later : Scope) (same : later.outer = scope.outer)
        (goesOn : ScopeRequest.height? height requests = some reached) :=
      @ih later (later.inner :: front) height (by rw [levels, same, around]; rfl) deep goesOn
    cases request with
    | define name type kind =>
      cases defined : scope.define name type kind with
      | error error =>
        have := kept scope rfl inside
        simpa only [ScopeTable.run, ScopeTable.perform, table, defined] using this
      | ok later =>
        have := kept later (outer_define defined) inside
        simpa only [ScopeTable.run, ScopeTable.perform, table, defined] using this
    | ask | reset => exact kept _ rfl inside
    | enter =>
      exact @ih scope.enter (.empty :: scope.inner :: front) (height + 1)
        (congrArg (ScopeLevel.empty :: scope.inner :: ·) around) (congrArg (· + 1) deep) inside
    | leave =>
      cases height with
      | zero => cases inside
      | succ height =>
        obtain _ | ⟨next, front⟩ := front
        · cases deep
        obtain ⟨inner, outer⟩ := scope
        obtain rfl : outer = next :: front ++ base := around
        exact @ih ⟨next, front ++ base⟩ (next :: front) height rfl (Nat.succ.inj deep) inside

theorem ancestor?_length {front base : List ScopeLevel} {around : Scope}
    (isFront : scope.levels = front ++ base) (isAround : around.levels = base) :
    table.ancestor? scope front.length = some around := by
  induction front generalizing scope with
  | nil =>
    obtain ⟨same, others⟩ := List.cons.inj (isFront.trans isAround.symm)
    obtain ⟨inner, outer⟩ := scope
    obtain rfl := same
    obtain rfl := others
    rfl
  | cons level front ih =>
    obtain ⟨inner, outer⟩ := scope
    obtain ⟨-, isOuter⟩ := List.cons.inj isFront
    obtain ⟨next, others, rfl⟩ : ∃ next others, outer = next :: others := by
      cases front with
      | nil => exact ⟨around.inner, around.outer, isOuter.trans isAround.symm⟩
      | cons next others => exact ⟨next, others ++ base, isOuter⟩
    exact @ih ⟨next, others⟩ isOuter

end Scope

/-- Scopes answer all requests as lists of declarations do. What is refused changes nothing, and
what is done inside a scope changes neither that scope nor those around it. -/
theorem Scope.run_ofClass (requests : List ScopeRequest) :
    (table.run ofClass requests).1 = (Ledger.table.run .ofClass requests).1 ∧
      List.Forall₂ ScopeLevel.Lists (table.run ofClass requests).2.levels
        (Ledger.table.run .ofClass requests).2.levels ∧
      (∀ request error,
        (table.perform (table.run ofClass requests).2 request).1 = .refused error →
          (table.perform (table.run ofClass requests).2 request).2 =
            (table.run ofClass requests).2) ∧
      ∀ inside deep, ScopeRequest.height? 0 inside = some deep →
        table.ancestor? (table.run ofClass (requests ++ .enter :: inside)).2 (deep + 1) =
          some (table.run ofClass requests).2 := by
  obtain ⟨same, accepted⟩ := @Ledger.run_scope .ofClass
    (List.forall_mem_singleton.2 Declaration.accepted_nil) requests
  replace same : table.run ofClass requests = _ := same
  refine ⟨congrArg Prod.fst same, ?_, fun request error refused => ?_, fun inside deep height => ?_⟩
  · rw [same, Ledger.levels_scope, List.forall₂_map_left_iff, List.forall₂_same]
    exact fun declarations member => ScopeLevel.lists_ofDeclarations (accepted _ member)
  · cases request with
    | define name type kind =>
      rw [ScopeTable.perform] at refused ⊢
      split at refused <;> rename_i defined
      · cases refused
      · rfl
    | ask => rfl
    | reset | enter | leave => cases refused
  · rw [ScopeTable.run_append]
    obtain ⟨added, long, isAdded⟩ :=
      @levels_run (table.run ofClass requests).2.enter inside [.empty] _ 0 deep rfl rfl height
    rw [← long]
    exact ancestor?_length isAdded rfl

/-- A class with a field and a static, and a subroutine that hides the field until it forgets its
own variables. -/
def ScopeRequest.hiding : List ScopeRequest :=
  [.define "x" "int" .field, .define "x" "int" .statics, .define "y" "Point" .statics,
    .define "y" "int" .locals, .enter, .define "x" "Point" .locals, .ask 0 (.typeOf "x"),
    .ask 1 (.typeOf "x"), .ask 0 (.indexOf "y"), .ask 2 (.count .field), .reset,
    .ask 0 (.kindOf "x")]

theorem Scope.run_ofClass_hiding :
    (table.run ofClass ScopeRequest.hiding).1 =
        [.declared 0, .refused (.redefined "x"), .declared 0, .refused (.wrongScope "y" .locals),
          .done, .declared 0, .type (some "Point"), .type (some "int"), .index (some 0), .absent,
          .done, .kind (some .field)] ∧
      (table.perform (table.run ofClass ScopeRequest.hiding).2 (.define "z" "int" .field)).2 =
        (table.run ofClass ScopeRequest.hiding).2 ∧
      table.ancestor? (table.run ofClass (ScopeRequest.hiding ++
        [.enter, .define "x" "int" .argument, .enter, .define "x" "int" .locals])).2 2 =
          some (table.run ofClass ScopeRequest.hiding).2 :=
  have all := run_ofClass ScopeRequest.hiding
  ⟨all.1.trans (by decide +kernel),
    all.2.2.1 (.define "z" "int" .field) (.wrongScope "z" .field) (by decide +kernel),
    all.2.2.2 [.define "x" "int" .argument, .enter, .define "x" "int" .locals] 1 (by decide)⟩

end Jack
