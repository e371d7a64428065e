import Jack.Proofs.Outcome
import Mathlib.Data.List.Induction

namespace Jack

namespace Declaration

theorem count_append (kind : VarKind) (first last : List Declaration) :
    count kind (first ++ last) = count kind first + count kind last :=
  List.countP_append

theorem count_singleton (kind : VarKind) (declaration : Declaration) :
    count kind [declaration] = if declaration.kind = kind then 1 else 0 := by
  simp [count, List.countP_singleton]

theorem isSome_find? (declarations : List Declaration) (name : String) :
    (find? declarations name).isSome = declarations.any (·.name = name) := by
  simp only [find?, Option.isSome_map, List.isSome_find?]

theorem find?_append_singleton {declarations : List Declaration} {new : Declaration}
    (fresh : new.name ∉ declarations.map Declaration.name) (name : String) :
    find? (declarations ++ [new]) name =
      if new.name = name then some ⟨new.type, new.kind, count new.kind declarations⟩
      else find? declarations name := by
  split
  · rename_i same
    subst same
    have others : ∀ declaration ∈ declarations, declaration.name ≠ new.name :=
      fun declaration member same => fresh (List.mem_map.2 ⟨declaration, member, same⟩)
    have absent : declarations.find? (·.name = new.name) = none := by simpa using others
    have all : (declarations ++ [new]).takeWhile (·.name ≠ new.name) = declarations := by
      rw [List.takeWhile_append_of_pos (by simpa using others)]
      simp
    simp only [find?, List.find?_append, absent, all]
    simp
  · rename_i other
    cases found : declarations.find? (·.name = name) with
    | none => simp [find?, found, other]
    | some declaration =>
      have member : declaration ∈ declarations := List.mem_of_find?_eq_some found
      have named : declaration.name = name := by simpa using List.find?_some found
      have stops : (declarations ++ [new]).takeWhile (·.name ≠ name) =
          declarations.takeWhile (·.name ≠ name) := by
        rw [List.takeWhile_append, if_neg]
        intro whole
        have all := List.takeWhile_eq_self_iff.1 (List.takeWhile_prefix _ |>.eq_of_length whole)
        simpa [named] using all declaration member
      simp only [find?, List.find?_append, found, stops, Option.some_or]

/-- A scope that took some declarations takes more of them. -/
def Accepts (declarations : List Declaration) : List Declaration → Prop
  | [] => True
  | new :: others =>
    (new.name ∉ declarations.map name ∧ count new.kind declarations < 65535) ∧
      Accepts (declarations ++ [new]) others

theorem accepts_append (declarations first last : List Declaration) :
    Accepts declarations (first ++ last) ↔
      Accepts declarations first ∧ Accepts (declarations ++ first) last := by
  induction first generalizing declarations with
  | nil => simp [Accepts]
  | cons new first ih => simp [Accepts, ih, and_assoc]

theorem accepted_nil : Accepted [] :=
  ⟨List.nodup_nil, fun _ => Nat.zero_le _⟩

theorem nodup_append_singleton (declarations : List Declaration) (new : Declaration) :
    ((declarations ++ [new]).map name).Nodup ↔
      (declarations.map name).Nodup ∧ new.name ∉ declarations.map name := by
  simp [List.nodup_append, imp_not_comm]

theorem accepted_append_singleton (declarations : List Declaration) (new : Declaration) :
    Accepted (declarations ++ [new]) ↔ Accepted declarations ∧
      new.name ∉ declarations.map name ∧ count new.kind declarations < 65535 := by
  have names := nodup_append_singleton declarations new
  constructor
  · rintro ⟨distinct, within⟩
    have room := within new.kind
    rw [count_append, count_singleton, if_pos rfl] at room
    refine ⟨⟨(names.1 distinct).1, fun kind => ?_⟩, (names.1 distinct).2, room⟩
    exact Nat.le_trans (count_append kind _ _ ▸ Nat.le_add_right _ _) (within kind)
  · rintro ⟨⟨distinct, within⟩, fresh, room⟩
    refine ⟨names.2 ⟨distinct, fresh⟩, fun kind => ?_⟩
    rw [count_append, count_singleton]
    split
    · rename_i same
      subst same
      exact room
    · exact within kind

theorem accepted_append (declarations others : List Declaration) :
    Accepted (declarations ++ others) ↔ Accepted declarations ∧ Accepts declarations others := by
  induction others generalizing declarations with
  | nil => simp [Accepts]
  | cons new others ih =>
    rw [List.append_cons, ih, accepted_append_singleton, and_assoc, Accepts]

theorem accepts_nil (declarations : List Declaration) :
    Accepts [] declarations ↔ Accepted declarations :=
  (and_iff_right accepted_nil).symm.trans (accepted_append [] declarations).symm

theorem accepted_object (className : String) (kind : SubroutineKind) :
    Accepted (kind.object className) := by
  cases kind with
  | method =>
    exact (accepted_append_singleton [] ⟨.argument, className, "this"⟩).2
      ⟨accepted_nil, List.not_mem_nil, Nat.succ_pos _⟩
  | _ => exact accepted_nil

/-- The names of declarations with their kinds. -/
def key (declaration : Declaration) : VarKind × String :=
  (declaration.kind, declaration.name)

/-- Declarations as tokens write them, next to those of a tree. Only their types may differ, and
they do not where the tokens are right. -/
structure Matches (right : Prop) (written declared : List Declaration) : Prop where
  keys : written.map key = declared.map key
  same : right → written = declared

namespace Matches

variable {right : Prop} {written declared first last : List Declaration}

theorem refl (declared : List Declaration) : Matches right declared declared :=
  ⟨rfl, fun _ => rfl⟩

theorem append (front : Matches right written declared) (back : Matches right first last) :
    Matches right (written ++ first) (declared ++ last) :=
  ⟨by rw [List.map_append, List.map_append, front.keys, back.keys],
    fun holds => by rw [front.same holds, back.same holds]⟩

theorem names (found : Matches right written declared) :
    written.map name = declared.map name := by
  have keys := congrArg (List.map Prod.snd) found.keys
  rwa [List.map_map, List.map_map] at keys

theorem count (found : Matches right written declared) (kind : VarKind) :
    Declaration.count kind written = Declaration.count kind declared := by
  have keys := congrArg (List.countP fun key => key.1 = kind) found.keys
  rwa [List.countP_map, List.countP_map] at keys

theorem accepted (found : Matches right written declared) :
    Accepted written ↔ Accepted declared := by
  constructor <;> rintro ⟨distinct, within⟩
  · exact ⟨found.names ▸ distinct, fun kind => found.count kind ▸ within kind⟩
  · exact ⟨found.names ▸ distinct, fun kind => found.count kind ▸ within kind⟩

theorem any (found : Matches right written declared) (name : String) :
    written.any (·.name = name) = declared.any (·.name = name) := by
  have names := congrArg (List.any · (· = name)) found.names
  rwa [List.any_map, List.any_map] at names

end Matches

end Declaration

namespace ScopeLevel

/-- The new variable gets the next index of its kind. -/
def add (level : ScopeLevel) (new : Declaration) : ScopeLevel :=
  ⟨level.declared.insert new.name ⟨new.type, new.kind, level.counts.get new.kind⟩,
    level.counts.bump new.kind⟩

def ofDeclarations (declarations : List Declaration) : ScopeLevel :=
  declarations.foldl add .empty

theorem ofDeclarations_append_singleton (declarations : List Declaration) (new : Declaration) :
    ofDeclarations (declarations ++ [new]) = (ofDeclarations declarations).add new := by
  rw [ofDeclarations, List.foldl_append]
  rfl

theorem get_counts_ofDeclarations (declarations : List Declaration) (kind : VarKind) :
    (ofDeclarations declarations).counts.get kind = Declaration.count kind declarations := by
  induction declarations using List.reverseRecOn with
  | nil => exact VarCounts.get_zero kind
  | append_singleton declarations new ih =>
    rw [ofDeclarations_append_singleton, add, VarCounts.get_bump, Declaration.count_append,
      Declaration.count_singleton, ih]
    by_cases same : kind = new.kind
    · simp [same]
    · simp [same, Ne.symm same]

theorem isSome_getElem?_ofDeclarations (declarations : List Declaration) (name : String) :
    (ofDeclarations declarations).declared[name]?.isSome = declarations.any (·.name = name) := by
  induction declarations using List.reverseRecOn with
  | nil => rfl
  | append_singleton declarations new ih =>
    rw [ofDeclarations_append_singleton, add, Std.TreeMap.getElem?_insert, List.any_append, ← ih]
    by_cases same : new.name = name <;> simp [same]

theorem mem_names_iff_contains (declarations : List Declaration) (name : String) :
    name ∈ declarations.map Declaration.name ↔
      (ofDeclarations declarations).declared.contains name = true := by
  rw [Std.TreeMap.contains_eq_isSome_getElem?, isSome_getElem?_ofDeclarations]
  simp

/-- A name stands for the variable that it was declared as. -/
theorem getElem?_ofDeclarations {declarations : List Declaration}
    (distinct : (declarations.map Declaration.name).Nodup) (name : String) :
    (ofDeclarations declarations).declared[name]? = Declaration.find? declarations name := by
  induction declarations using List.reverseRecOn with
  | nil => rfl
  | append_singleton declarations new ih =>
    obtain ⟨distinct, fresh⟩ := (Declaration.nodup_append_singleton declarations new).1 distinct
    rw [ofDeclarations_append_singleton, add, Std.TreeMap.getElem?_insert,
      get_counts_ofDeclarations, Declaration.find?_append_singleton fresh, ih distinct]
    simp

end ScopeLevel

/-- What comes of a declaration behind others. -/
theorem Scope.define_ofDeclarations {declarations : List Declaration} {outer : List ScopeLevel}
    {kind : VarKind} (type name : String) (level : kind.isClassLevel = outer.isEmpty) :
    Scope.define ⟨.ofDeclarations declarations, outer⟩ name type kind =
      if name ∈ declarations.map Declaration.name then .error (.redefined name)
      else if 65535 ≤ Declaration.count kind declarations then .error (.tooMany name kind)
      else .ok ⟨.ofDeclarations (declarations ++ [⟨kind, type, name⟩]), outer⟩ := by
  simp only [define, isSubroutine, level, Bool.eq_not_self, if_false, count, maxPerKind,
    ScopeLevel.mem_names_iff_contains, ScopeLevel.get_counts_ofDeclarations,
    ScopeLevel.ofDeclarations_append_singleton, ScopeLevel.add]

end Jack
