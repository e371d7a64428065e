import Jack.Proofs.Places

namespace Jack

/-- A name that a system lets an entry of a directory have. -/
structure Path.IsEntry (name : String) : Prop extends Path.Proper name where
  noNul : '\x00' ∉ name.toList
  short : name.utf8ByteSize ≤ 255

instance (name : String) : Decidable (Path.IsEntry name) :=
  decidable_of_iff
    ((name ≠ "" ∧ name ≠ "." ∧ name ≠ ".." ∧ '/' ∉ name.toList) ∧
      '\x00' ∉ name.toList ∧ name.utf8ByteSize ≤ 255)
    ⟨fun ⟨⟨nonempty, notHere, notAbove, whole⟩, noNul, short⟩ =>
        ⟨⟨nonempty, notHere, notAbove, whole⟩, noNul, short⟩,
      fun ⟨⟨nonempty, notHere, notAbove, whole⟩, noNul, short⟩ =>
        ⟨⟨nonempty, notHere, notAbove, whole⟩, noNul, short⟩⟩

namespace FileTree

/-- Whether all entries have names that a system lets them have. -/
def WellNamed (tree : FileTree) : Prop :=
  ∀ entry ∈ tree.entries, ∀ name ∈ entry.1, Path.IsEntry name

instance (tree : FileTree) : Decidable tree.WellNamed :=
  inferInstanceAs (Decidable (∀ entry ∈ tree.entries, ∀ name ∈ entry.1, Path.IsEntry name))

variable {tree : FileTree} {names : List String} {path name directory : String}
  {place next : Place}

theorem look?_of_ne_nil (notRoot : names ≠ []) :
    tree.look? (.below names) = tree.entries.lookup names := by
  cases names with
  | nil => exact absurd rfl notRoot
  | cons => rfl

/-- An entry whose name is listed lies directly in the directory. -/
theorem listed_iff {entry : List String × Entry} :
    (if entry.1.dropLast = names then entry.1.getLast? else none) = some name ↔
      entry.1 = names ++ [name] := by
  constructor
  · intro listed
    split at listed
    · rename_i isBelow
      obtain ⟨before, spelt⟩ := List.getLast?_eq_some_iff.1 listed
      rw [spelt, List.dropLast_concat] at isBelow
      rw [spelt, isBelow]
    · cases listed
  · intro spelt
    rw [spelt, List.dropLast_concat, if_pos rfl, List.getLast?_concat]

/-- Exactly the entries of a directory are listed. -/
theorem mem_namesBelow :
    name ∈ tree.namesBelow names ↔ (tree.look? (.below (names ++ [name]))).isSome := by
  rw [look?_of_ne_nil (List.append_ne_nil_of_right_ne_nil _ (List.cons_ne_nil _ _)),
    List.lookup_isSome_iff, namesBelow, List.mem_filterMap]
  simp only [listed_iff, beq_iff_eq, eq_comm (a := names ++ [name])]

theorem mem_namesBelow_of_look? {entry : Entry}
    (found : tree.look? (.below (names ++ [name])) = some entry) :
    name ∈ tree.namesBelow names := by
  rw [mem_namesBelow, found]
  rfl

theorem nodup_namesBelow (tree : FileTree) (names : List String) :
    (tree.namesBelow names).Nodup := by
  refine List.pairwise_filterMap.2 ((List.pairwise_map.1 tree.distinct).imp ?_)
  rintro first second differ name isFirst other isSecond rfl
  exact differ ((listed_iff.1 isFirst).trans (listed_iff.1 isSecond).symm)

theorem WellNamed.isEntry (named : tree.WellNamed) (listed : name ∈ tree.namesBelow names) :
    Path.IsEntry name := by
  obtain ⟨entry, member, isListed⟩ := List.mem_filterMap.1 listed
  refine named entry member name ?_
  rw [listed_iff.1 isListed]
  exact List.mem_append_right _ List.mem_cons_self

theorem child_of_isEntry (isEntry : Path.IsEntry name) :
    child place name = .ok (.below (place.names ++ [name])) := by
  have other : ¬(name = "" ∨ name = ".") := not_or.2 ⟨isEntry.nonempty, isEntry.notHere⟩
  unfold child
  rw [if_neg other, if_neg isEntry.notAbove, if_neg (Nat.not_lt.2 isEntry.short)]

/-- Where a walk begins. -/
theorem locate_eq_ok : tree.locate path = .ok place ↔
    '\x00' ∉ path.toList ∧ path ≠ "" ∧ path.utf8ByteSize ≤ maxPath ∧
      tree.walk (.below (if path.startsWith "/" then [] else tree.current))
        (Path.components path) = .ok place := by
  unfold locate
  split
  · simp_all
  · split
    · simp_all
    · split
      · simp; omega
      · simp_all

theorem startsWith_append {front : String} (inhabited : front ≠ "") (name : String) :
    (front ++ name).startsWith "/" = front.startsWith "/" := by
  have slash : "/".toList = ['/'] := rfl
  rw [Bool.eq_iff_iff, String.startsWith_string_iff, String.startsWith_string_iff,
    String.toList_append, slash]
  cases spelt : front.toList with
  | nil => exact absurd (String.toList_eq_nil_iff.1 spelt) inhabited
  | cons c text => simp only [List.cons_append, List.cons_prefix_cons, List.nil_prefix]

/-- Whether the path of a directory ends in a slash or not, the names in front of one that is joined
to it lead to the directory. -/
theorem exists_walk_join {start : Place} (inhabited : directory ≠ "") (whole : '/' ∉ name.toList)
    (walked : tree.walk start (Path.components directory) = .ok place) :
    ∃ front, Path.components (Path.join directory name) = front ++ [name] ∧
      tree.walk start front = .ok place := by
  obtain ⟨front, leads, rfl | rfl, joined⟩ := Path.exists_leads_join directory
  · obtain rfl | ⟨before, rfl⟩ := leads
    · exact absurd rfl inhabited
    · -- Behind the slash is an empty name, and it stays in the directory.
      have parts : Path.components (before ++ "/") = Path.components before ++ [""] := by
        have nothing := Path.components_slash before (show '/' ∉ "".toList by decide)
        rwa [String.append_empty] at nothing
      rw [parts, walk_append] at walked
      obtain ⟨last, walked, stays⟩ := walked
      obtain ⟨-, next, step, rest⟩ := walk_cons.1 stays
      cases step
      cases rest
      exact ⟨_, (congrArg _ (joined name)).trans (Path.components_slash before whole), walked⟩
  · exact ⟨_, (congrArg _ (joined name)).trans (Path.components_slash directory whole), walked⟩

/-- From a directory a name leads one step further. -/
theorem locate_join (located : tree.locate directory = .ok place)
    (isDirectory : tree.look? place = some .directory) (whole : '/' ∉ name.toList)
    (noNul : '\x00' ∉ name.toList) (short : (Path.join directory name).utf8ByteSize ≤ maxPath)
    (step : child place name = .ok next) : tree.locate (Path.join directory name) = .ok next := by
  obtain ⟨noNul', inhabited, -, walked⟩ := locate_eq_ok.1 located
  have parts : ∃ tail, Path.join directory name = directory ++ tail ∧ '\x00' ∉ tail.toList := by
    obtain ⟨front, -, rfl | rfl, joined⟩ := Path.exists_leads_join directory
    · exact ⟨name, joined name, noNul⟩
    · refine ⟨"/" ++ name, (joined name).trans String.append_assoc, ?_⟩
      have noNulSlash : '\x00' ∉ "/".toList := by decide
      rw [String.toList_append]
      exact fun member => (List.mem_append.1 member).elim noNulSlash noNul
  obtain ⟨tail, joined, noNulTail⟩ := parts
  obtain ⟨front, spelt, walkedFront⟩ := exists_walk_join inhabited whole walked
  refine locate_eq_ok.2 ⟨?_, ?_, short, ?_⟩
  · rw [joined, String.toList_append]
    exact fun member => (List.mem_append.1 member).elim noNul' noNulTail
  · rw [joined]
    exact fun empty => inhabited (String.append_eq_empty_iff.1 empty).1
  · have further : tree.walk place [name] = .ok next := walk_cons.2 ⟨isDirectory, next, step, rfl⟩
    rw [spelt, joined, startsWith_append inhabited]
    exact walk_append.2 ⟨place, walkedFront, further⟩

end FileTree

end Jack
