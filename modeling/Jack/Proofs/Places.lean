import Jack.Files.Tree
import Jack.Proofs.Paths

namespace Jack.FileTree

variable {tree middle after : FileTree} {place last : Place} {path name : String}

theorem walk_cons {names : List String} :
    tree.walk place (name :: names) = .ok last ↔ tree.look? place = some .directory ∧
      ∃ next, child place name = .ok next ∧ tree.walk next names = .ok last := by
  rw [walk]
  constructor
  · intro walked
    split at walked
    · cases walked
    · cases walked
    · split at walked
      · exact ⟨‹_›, _, ‹_›, walked⟩
      · cases walked
  · rintro ⟨isDirectory, next, step, walked⟩
    simp only [isDirectory, step, walked]

theorem walk_append {front back : List String} :
    tree.walk place (front ++ back) = .ok last ↔
      ∃ next, tree.walk place front = .ok next ∧ tree.walk next back = .ok last := by
  induction front generalizing place with
  | nil => simp [walk]
  | cons name front ih =>
    simp only [List.cons_append, walk_cons, ih]
    constructor
    · rintro ⟨isDirectory, next, step, place, walked, rest⟩
      exact ⟨place, ⟨isDirectory, next, step, walked⟩, rest⟩
    · rintro ⟨place, ⟨isDirectory, next, step, walked⟩, rest⟩
      exact ⟨isDirectory, next, step, place, walked, rest⟩

/-- Where one name leads: nowhere else, up, or to an entry of this name. -/
theorem child_cases (step : child place name = .ok last) :
    (name = "" ∨ name = ".") ∧ last = place ∨
      name = ".." ∧ last = .below place.names.dropLast ∨
      name ≠ "" ∧ name ≠ "." ∧ name ≠ ".." ∧ last = .below (place.names ++ [name]) := by
  unfold child at step
  split at step
  · cases step
    exact .inl ⟨‹_›, rfl⟩
  · rename_i notHere
    obtain ⟨nonempty, notDot⟩ := not_or.1 notHere
    split at step
    · cases step
      exact .inr (.inl ⟨‹_›, rfl⟩)
    · split at step
      · cases step
      · cases step
        exact .inr (.inr ⟨nonempty, notDot, ‹_›, rfl⟩)

/-- All places on the way to a place are directories. -/
def Inside (tree : FileTree) (place : Place) : Prop :=
  ∀ count < place.names.length, tree.look? (.below (place.names.take count)) = some .directory

/-- The place above a directory that was walked to is a directory. -/
theorem Inside.directory_dropLast (inside : tree.Inside place)
    (isDirectory : tree.look? place = some .directory) :
    tree.look? (.below place.names.dropLast) = some .directory := by
  obtain ⟨names⟩ := place
  by_cases isRoot : names = []
  · rw [isRoot]
    rfl
  · have positive := List.length_pos_iff.2 isRoot
    have shorter : names.length - 1 < names.length := by omega
    rw [List.dropLast_eq_take]
    exact inside _ shorter

theorem Inside.child (inside : tree.Inside place) (isDirectory : tree.look? place = some .directory)
    (step : child place name = .ok last) : tree.Inside last := by
  obtain ⟨-, rfl⟩ | ⟨-, rfl⟩ | ⟨-, -, -, rfl⟩ := child_cases step
  · exact inside
  · intro count shorter
    rw [List.length_dropLast] at shorter
    rw [List.dropLast_eq_take, List.take_take, Nat.min_eq_left (Nat.le_of_lt shorter)]
    exact inside count (by omega)
  · intro count shorter
    rw [List.length_append, List.length_singleton] at shorter
    rw [List.take_append_of_le_length (by omega)]
    by_cases whole : count = place.names.length
    · rw [whole, List.take_length]
      exact isDirectory
    · exact inside count (by omega)

theorem Inside.walk {names : List String} (inside : tree.Inside place)
    (walked : tree.walk place names = .ok last) : tree.Inside last := by
  induction names generalizing place with
  | nil =>
    cases walked
    exact inside
  | cons name names ih =>
    obtain ⟨isDirectory, next, step, rest⟩ := walk_cons.1 walked
    exact ih (inside.child isDirectory step) rest

theorem walk_of_locate (located : tree.locate path = .ok place) :
    ∃ start, tree.Inside start ∧ tree.walk start (Path.components path) = .ok place := by
  unfold locate at located
  split at located
  · cases located
  · split at located
    · cases located
    · split at located
      · cases located
      · refine ⟨_, ?_, located⟩
        split
        · exact fun count shorter => absurd shorter (Nat.not_lt_zero count)
        · intro count _
          have isWay : tree.current.take count <+: tree.current := List.take_prefix count _
          exact look?_current isWay

/-- A path to a file ends in the name of the file. -/
theorem below_of_locate {content : ByteArray} (located : tree.locate path = .ok place)
    (isFile : tree.look? place = some (.file content)) :
    Path.Proper (Path.lastPart path) ∧ ∃ names, place = .below (names ++ [Path.lastPart path]) := by
  obtain ⟨start, inside, walked⟩ := walk_of_locate located
  obtain ⟨front, isFront⟩ := Path.exists_components path
  rw [isFront, walk_append] at walked
  obtain ⟨before, walked, last⟩ := walked
  obtain ⟨isDirectory, next, step, rest⟩ := walk_cons.1 last
  cases rest
  have notDirectory : tree.look? place ≠ some .directory := by
    rw [isFile]
    simp
  -- Without a proper name at its end the path would lead to a directory.
  obtain ⟨-, rfl⟩ | ⟨-, rfl⟩ | ⟨nonempty, notDot, notAbove, rfl⟩ := child_cases step
  · exact absurd isDirectory notDirectory
  · exact absurd ((inside.walk walked).directory_dropLast isDirectory) notDirectory
  · exact ⟨⟨nonempty, notDot, notAbove, Path.slash_notMem_lastPart path⟩, before.names, rfl⟩

/-- Walks to places depend on the directories only. -/
theorem walk_congr
    (same : ∀ place, tree.look? place = some .directory ↔ after.look? place = some .directory)
    {names : List String} :
    tree.walk place names = .ok last ↔ after.walk place names = .ok last := by
  induction names generalizing place with
  | nil => rfl
  | cons name names ih => simp only [walk_cons, same, ih]

theorem locate_congr (current : after.current = tree.current)
    (same : ∀ place, tree.look? place = some .directory ↔ after.look? place = some .directory) :
    tree.locate path = .ok place ↔ after.locate path = .ok place := by
  unfold locate
  rw [current]
  split
  · exact Iff.rfl
  · split
    · exact Iff.rfl
    · split
      · exact Iff.rfl
      · exact walk_congr same

theorem read_eq_ok {content : ByteArray} : tree.read path = .ok content ↔
    ∃ place, tree.locate path = .ok place ∧ tree.look? place = some (.file content) := by
  unfold read find
  cases tree.locate path with
  | error error => simp
  | ok place =>
    cases found : tree.look? place with
    | none => simp [found]
    | some entry => cases entry <;> simp [found]

theorem kind_eq_ok {kind : FileKind} : tree.kind path = .ok kind ↔
    ∃ place entry, tree.locate path = .ok place ∧ tree.look? place = some entry ∧
      entry.kind = kind := by
  unfold FileTree.kind find
  cases tree.locate path with
  | error error => simp [Except.map]
  | ok place => cases found : tree.look? place <;> simp [found, Except.map]

/-- What a path leads to is a file with its bytes or a directory. -/
theorem kind_ne_special : tree.kind path ≠ .ok .special := by
  intro special
  obtain ⟨place, entry, -, -, kind⟩ := kind_eq_ok.1 special
  cases entry <;> cases kind

theorem read_of_kind (regular : tree.kind path = .ok .regular) :
    ∃ content, tree.read path = .ok content := by
  obtain ⟨place, entry, located, found, kind⟩ := kind_eq_ok.1 regular
  cases entry with
  | directory => cases kind
  | file content => exact ⟨content, read_eq_ok.2 ⟨place, located, found⟩⟩

/-- A tree in which nothing has changed but what the paths lead to, and there no directory. -/
structure Rewrites (tree after : FileTree) (paths : List String) : Prop where
  current : after.current = tree.current
  directories : ∀ place, tree.look? place = some .directory ↔ after.look? place = some .directory
  others : ∀ place, (∀ path ∈ paths, tree.locate path ≠ .ok place) →
    after.look? place = tree.look? place

namespace Rewrites

variable {paths others : List String}

theorem refl (tree : FileTree) (paths : List String) : tree.Rewrites tree paths :=
  ⟨rfl, fun _ => Iff.rfl, fun _ _ => rfl⟩

/-- Files that are written do not change where a path leads. -/
theorem locate_iff (rewrites : tree.Rewrites after paths) :
    tree.locate path = .ok place ↔ after.locate path = .ok place :=
  locate_congr rewrites.current rewrites.directories

theorem append (first : tree.Rewrites middle paths) (second : middle.Rewrites after others) :
    tree.Rewrites after (paths ++ others) where
  current := second.current.trans first.current
  directories place := (first.directories place).trans (second.directories place)
  others place apart := by
    have apartFirst : ∀ path ∈ paths, tree.locate path ≠ .ok place :=
      fun path member => apart path (List.mem_append_left _ member)
    have apartSecond : ∀ path ∈ others, middle.locate path ≠ .ok place := by
      intro path member located
      exact apart path (List.mem_append_right _ member) (first.locate_iff.2 located)
    exact (second.others place apartSecond).trans (first.others place apartFirst)

/-- A file that none of the paths leads to keeps what is in it. -/
theorem read {content : ByteArray} (rewrites : tree.Rewrites after paths)
    (apart : ∀ path' ∈ paths, tree.locate path' ≠ tree.locate path)
    (holds : tree.read path = .ok content) : after.read path = .ok content := by
  obtain ⟨place, located, isFile⟩ := read_eq_ok.1 holds
  have elsewhere : ∀ path' ∈ paths, tree.locate path' ≠ .ok place :=
    fun path' member => located ▸ apart path' member
  refine read_eq_ok.2 ⟨place, rewrites.locate_iff.1 located, ?_⟩
  rw [rewrites.others place elsewhere, isFile]

/-- A write replaces no directory. -/
theorem of_write {content : ByteArray} (wrote : tree.write path content = .ok after) :
    tree.Rewrites after [path] := by
  unfold write at wrote
  split at wrote
  · cases wrote
  · rename_i place located
    split at wrote
    · cases wrote
    · rename_i notDirectory
      cases wrote
      have other : tree.look? place ≠ some .directory := notDirectory
      have isPlace : Place.below place.names = place := rfl
      refine ⟨current_put .., fun somewhere => ?_, fun somewhere apart => ?_⟩
      · rw [look?_put, isPlace]
        by_cases here : somewhere = place ∧ ¬place.names <+: tree.current
        · rw [if_pos here, here.1]
          simp [other]
        · rw [if_neg here]
      · have elsewhere : ¬(somewhere = place ∧ ¬place.names <+: tree.current) := by
          rintro ⟨rfl, -⟩
          exact apart path List.mem_cons_self located
        rw [look?_put, isPlace, if_neg elsewhere]

end Rewrites

end Jack.FileTree
