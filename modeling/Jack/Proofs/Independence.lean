import Jack.Proofs.Soundness

namespace Jack

namespace Compilation

/-- Whether tokens are compiled where the sink takes everything. -/
def Succeeds (limit : Nat) (tokens : List Token) : Prop :=
  ∃ summary, (ofTokens limit tokens .unlimited).result = .ok summary

/-- What is written for tokens where the sink takes everything. -/
def written (limit : Nat) (tokens : List Token) : ByteArray :=
  (ofTokens limit tokens .unlimited).sink.held

variable {limit : Nat} {tree : ClassTree} {tokens : List Token}

/-- Tokens that spell a class are compiled exactly where it is valid and does not nest too deep. -/
theorem succeeds_iff (spelt : tree.SpeltBy tokens) :
    Succeeds limit tokens ↔ tree.Valid ∧ tree.depth ≤ limit := by
  constructor
  · rintro ⟨summary, compiled⟩
    obtain ⟨other, isOther, valid, within⟩ := exists_tree compiled
    obtain rfl : other = tree := ClassTree.yield_injective (isOther.symm.trans spelt.yield)
    exact ⟨valid, within⟩
  · rintro ⟨valid, within⟩
    obtain ⟨generator, ends, -⟩ := ClassTree.ofTokens_eq valid within spelt
    have room : Sink.unlimited.HasRoom (ClassCode.ofTokens limit tokens).text.toUTF8.size :=
      fun _ limited => absurd limited (Option.not_mem_none _)
    exact ⟨_, (ofCode_of_hasRoom ends room rfl).1⟩

theorem written_eq (spelt : tree.SpeltBy tokens) (succeeds : Succeeds limit tokens) :
    written limit tokens = tree.text.toUTF8 := by
  obtain ⟨valid, within⟩ := (succeeds_iff spelt).1 succeeds
  obtain ⟨-, -, -, -, isCode⟩ := ClassTree.ofTokens_eq valid within spelt
  obtain ⟨summary, compiled⟩ := succeeds
  have held := held_of_ofCode compiled
  rw [ClassCode.text, isCode] at held
  exact held.trans ByteArray.empty_append

end Compilation

namespace ClassTree

variable {limit : Nat} {tree : ClassTree} {subroutines : List Subroutine}

/-- The same class with other subroutines. -/
def withSubroutines (tree : ClassTree) (subroutines : List Subroutine) : ClassTree :=
  { tree with subroutines }

/-- What is asked of a class is asked of each subroutine on its own, next to the variables of the
class. -/
theorem valid_withSubroutines (inhabited : subroutines ≠ []) :
    (tree.withSubroutines subroutines).Valid ∧ (tree.withSubroutines subroutines).depth ≤ limit ↔
      ∀ subroutine ∈ subroutines, (tree.withSubroutines [subroutine]).Valid ∧
        (tree.withSubroutines [subroutine]).depth ≤ limit := by
  simp only [depth_le]
  constructor
  · rintro ⟨⟨accepted, valid⟩, within⟩ subroutine member
    refine ⟨⟨accepted, fun other isOnly => ?_⟩, fun other isOnly => ?_⟩
    · exact List.mem_singleton.1 isOnly ▸ valid subroutine member
    · exact List.mem_singleton.1 isOnly ▸ within subroutine member
  · intro each
    -- The variables of the class are checked with any of its subroutines.
    obtain ⟨first, isFirst⟩ := List.exists_mem_of_ne_nil subroutines inhabited
    refine ⟨⟨(each first isFirst).1.accepted, fun subroutine member => ?_⟩,
      fun subroutine member => ?_⟩
    · exact (each subroutine member).1.subroutines subroutine (List.mem_singleton_self _)
    · exact (each subroutine member).2 subroutine (List.mem_singleton_self _)

/-- The variables of the class stay the same, so other subroutines do not change the code of one. -/
theorem code_withSubroutines (tree : ClassTree) (subroutines : List Subroutine) :
    (tree.withSubroutines subroutines).code =
      subroutines.flatMap (Subroutine.code tree.name tree.declarations) :=
  rfl

theorem toUTF8_text_withSubroutines (tree : ClassTree) (subroutines : List Subroutine) :
    (tree.withSubroutines subroutines).text.toUTF8 =
      (subroutines.map fun subroutine => (tree.withSubroutines [subroutine]).text.toUTF8).foldr
        (· ++ ·) .empty := by
  induction subroutines with
  | nil => rfl
  | cons subroutine subroutines ih =>
    have code : (tree.withSubroutines (subroutine :: subroutines)).code =
        (tree.withSubroutines [subroutine]).code ++ (tree.withSubroutines subroutines).code := by
      simp only [code_withSubroutines, List.flatMap_cons, List.flatMap_nil, List.append_nil]
    have text : (tree.withSubroutines (subroutine :: subroutines)).text =
        (tree.withSubroutines [subroutine]).text ++ (tree.withSubroutines subroutines).text := by
      rw [ClassTree.text, code, List.map_append, String.join_append]
      rfl
    rw [List.map_cons, List.foldr_cons, ← ih, text]
    rfl

end ClassTree

/-- In whichever order the subroutines of a class stand, the class is compiled if and only if each of
them is compiled as the only subroutine of the class, and then the texts of these classes, in this
order, are its text. -/
theorem Compilation.succeeds_iff_alone {limit : Nat} {tree : ClassTree}
    (inhabited : tree.subroutines ≠ []) {alone : Subroutine → List Token}
    (speltAlone : ∀ subroutine ∈ tree.subroutines,
      (tree.withSubroutines [subroutine]).SpeltBy (alone subroutine))
    {order : List Subroutine} (perm : order.Perm tree.subroutines) {tokens : List Token}
    (spelt : (tree.withSubroutines order).SpeltBy tokens) :
    (Succeeds limit tokens ↔ ∀ subroutine ∈ tree.subroutines, Succeeds limit (alone subroutine)) ∧
      (Succeeds limit tokens → written limit tokens =
        (order.map fun subroutine => written limit (alone subroutine)).foldr (· ++ ·) .empty) := by
  have inhabitedOrder : order ≠ [] := fun none => inhabited (none ▸ perm).nil_eq.symm
  have iff : Succeeds limit tokens ↔
      ∀ subroutine ∈ tree.subroutines, Succeeds limit (alone subroutine) := by
    rw [succeeds_iff spelt, ClassTree.valid_withSubroutines inhabitedOrder]
    constructor
    · intro each subroutine member
      exact (succeeds_iff (speltAlone subroutine member)).2 (each subroutine (perm.mem_iff.2 member))
    · intro each subroutine member
      have isOne := perm.mem_iff.1 member
      exact (succeeds_iff (speltAlone subroutine isOne)).1 (each subroutine isOne)
  refine ⟨iff, fun succeeds => ?_⟩
  have parts : order.map (fun subroutine => written limit (alone subroutine)) =
      order.map fun subroutine => (tree.withSubroutines [subroutine]).text.toUTF8 := by
    refine List.map_congr_left fun subroutine member => ?_
    have isOne := perm.mem_iff.1 member
    exact written_eq (speltAlone subroutine isOne) (iff.1 succeeds subroutine isOne)
  rw [written_eq spelt succeeds, ClassTree.toUTF8_text_withSubroutines, parts]

/-- A method with a parameter, a local variable and a loop. -/
def Subroutine.add : Subroutine where
  kind := .method
  result := none
  name := "add"
  parameters := [⟨.int, "x"⟩]
  locals := [⟨.int, "y", []⟩]
  body :=
    .more (.loop (.mk (.variable "x") .done)
      (.more (.setVariable "y" (.mk (.variable "x") .done)) .done))
    (.more .returnNothing .done)

/-- A function with the same names for other variables, and with a loop of its own. -/
def Subroutine.get : Subroutine where
  kind := .function
  result := some .int
  name := "get"
  parameters := [⟨.int, "y"⟩]
  locals := [⟨.int, "x", []⟩]
  body :=
    .more (.loop (.mk (.variable "y") .done)
      (.more (.setVariable "total" (.mk (.variable "x") .done)) .done))
    (.more (.returnValue (.mk (.variable "y") .done)) .done)

/-- Both of them next to a variable that they share. -/
def ClassTree.pair : ClassTree where
  name := "Pair"
  classVariables := [⟨.statics, .int, "total", []⟩]
  subroutines := [.add, .get]

theorem Compilation.succeeds_iff_alone_pair :
    [Subroutine.get, .add].Perm ClassTree.pair.subroutines ∧
      Succeeds 2 ((ClassTree.pair.withSubroutines [.get, .add]).yield.map Terminal.token) ∧
      written 2 ((ClassTree.pair.withSubroutines [.get, .add]).yield.map Terminal.token) =
        written 2 ((ClassTree.pair.withSubroutines [.get]).yield.map Terminal.token) ++
          (written 2 ((ClassTree.pair.withSubroutines [.add]).yield.map Terminal.token) ++
            .empty) := by
  have perm : [Subroutine.get, .add].Perm ClassTree.pair.subroutines := .swap ..
  have each : ∀ subroutine ∈ ClassTree.pair.subroutines, Succeeds 2
      ((ClassTree.pair.withSubroutines [subroutine]).yield.map Terminal.token) := by
    refine List.forall_mem_cons.2 ⟨?_, List.forall_mem_singleton.2 ?_⟩
    · exact ⟨⟨"Pair", 1, 13⟩, by decide +kernel⟩
    · exact ⟨⟨"Pair", 1, 11⟩, by decide +kernel⟩
  obtain ⟨iff, text⟩ := succeeds_iff_alone (List.cons_ne_nil _ _)
    (fun subroutine _ => (ClassTree.pair.withSubroutines [subroutine]).speltBy_tokens) perm
    (ClassTree.pair.withSubroutines [.get, .add]).speltBy_tokens
  have succeeds := iff.2 each
  exact ⟨perm, succeeds, text succeeds⟩

end Jack
