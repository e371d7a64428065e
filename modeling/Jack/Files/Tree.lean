import Jack.Files.Access
import Jack.Files.Path

namespace Jack

inductive Entry where
  | directory
  | file (content : ByteArray)

def Entry.kind : Entry → FileKind
  | directory => .directory
  | file _ => .regular

/-- A place that a path leads to, by the names on the way from the root. -/
structure Place where
  below ::
  names : List String
deriving DecidableEq, Repr

/-- The entries of a file system by the names on the way from the root to them, one at a place, and
the directory in which paths begin that do not begin at the root. There are no links. -/
structure FileTree where
  entries : List (List String × Entry)
  distinct : (entries.map Prod.fst).Nodup
  current : List String
  /-- The current directory is there, and so are the directories on the way to it. -/
  rooted : ∀ names, names <+: current → names ≠ [] → entries.lookup names = some .directory

namespace FileTree

/-- The root itself is no entry. -/
def look? (tree : FileTree) : Place → Option Entry
  | .below [] => some .directory
  | .below names => tree.entries.lookup names

theorem lookup_filter_ne {entries : List (List String × Entry)} {names other : List String}
    (differs : other ≠ names) :
    (entries.filter fun old => old.1 != names).lookup other = entries.lookup other := by
  induction entries with
  | nil => rfl
  | cons first entries ih =>
    obtain ⟨name, entry⟩ := first
    by_cases same : name = names
    · subst same
      have passed : (other == name) = false := by simpa using differs
      simpa [List.lookup_cons, passed] using ih
    · simp [same, List.lookup_cons, ih]

/-- Makes an entry at a place, or replaces the one that is there. The current directory and those on
the way to it stay what they are. -/
def put (tree : FileTree) (names : List String) (entry : Entry) : FileTree :=
  if passed : names <+: tree.current then tree
  else {
    entries := (names, entry) :: tree.entries.filter fun old => old.1 != names
    distinct := by
      rw [List.map_cons, List.nodup_cons]
      refine ⟨?_, tree.distinct.sublist (List.filter_sublist.map Prod.fst)⟩
      simp
    current := tree.current
    rooted := by
      intro way isPrefix notRoot
      have differs : way ≠ names := fun same => passed (same ▸ isPrefix)
      rw [List.lookup_cons, beq_false_of_ne differs, lookup_filter_ne differs]
      exact tree.rooted way isPrefix notRoot }

@[simp] theorem current_put (tree : FileTree) (names : List String) (entry : Entry) :
    (tree.put names entry).current = tree.current := by
  unfold put
  split <;> rfl

/-- What is at a place afterwards. -/
theorem look?_put (tree : FileTree) (names : List String) (entry : Entry) (place : Place) :
    (tree.put names entry).look? place =
      if place = .below names ∧ ¬names <+: tree.current then some entry else tree.look? place := by
  obtain ⟨other⟩ := place
  by_cases passed : names <+: tree.current
  · simp [put, passed]
  · cases other with
    | nil =>
      have differs : [] ≠ names := fun same => passed (same ▸ List.nil_prefix)
      simp [look?, differs]
    | cons name other =>
      by_cases same : name :: other = names
      · subst same
        simp [look?, put, passed]
      · simp only [look?, put, dif_neg passed, List.lookup_cons, beq_false_of_ne same,
          lookup_filter_ne same, Place.below.injEq, same, false_and, if_false]

/-- The current directory is a directory, and so are those on the way to it. -/
theorem look?_current {tree : FileTree} {names : List String} (isPrefix : names <+: tree.current) :
    tree.look? (.below names) = some .directory := by
  cases names with
  | nil => rfl
  | cons name names => exact tree.rooted _ isPrefix (List.cons_ne_nil _ _)

theorem lookup_eq_directory {entries : List (List String × Entry)} {names : List String}
    (all : ∀ entry ∈ entries, entry.2 = .directory) (member : names ∈ entries.map Prod.fst) :
    entries.lookup names = some .directory := by
  induction entries with
  | nil => cases member
  | cons first entries ih =>
    obtain ⟨way, entry⟩ := first
    obtain ⟨isDirectory, others⟩ := List.forall_mem_cons.1 all
    by_cases same : names = way
    · rw [same, List.lookup_cons_self, ← isDirectory]
    · rw [List.lookup_cons, beq_false_of_ne same]
      exact ih others ((List.mem_cons.1 member).resolve_left same)

/-- A current directory with nothing in it. -/
def ofCurrent (names : List String) : FileTree where
  entries := (List.range names.length).map fun count => (names.take (count + 1), .directory)
  distinct := by
    rw [List.map_map]
    refine List.pairwise_map.2 (List.nodup_range.imp_of_mem ?_)
    intro first second isFirst isSecond differ same
    have lengths := congrArg List.length same
    have inFirst := List.mem_range.1 isFirst
    have inSecond := List.mem_range.1 isSecond
    simp only [Function.comp_apply, List.length_take] at lengths
    omega
  current := names
  rooted := by
    intro way isPrefix notRoot
    have shorter := isPrefix.length_le
    have positive := List.length_pos_iff.2 notRoot
    refine lookup_eq_directory (by simp) ?_
    rw [List.map_map]
    refine List.mem_map.2 ⟨way.length - 1, List.mem_range.2 (by omega), ?_⟩
    have whole : way.length - 1 + 1 = way.length := by omega
    simp only [Function.comp_apply, whole]
    exact (List.prefix_iff_eq_take.1 isPrefix).symm

/-- Makes or replaces an entry below the current directory. -/
def putHere (tree : FileTree) (names : List String) (entry : Entry) : FileTree :=
  tree.put (tree.current ++ names) entry

/-- One name further from a directory. Above the root there is only the root. -/
def child (place : Place) (name : String) : Except FileError Place :=
  if name = "" ∨ name = "." then .ok place
  else if name = ".." then .ok (.below place.names.dropLast)
  else if 255 < name.utf8ByteSize then .error .nameTooLong
  else .ok (.below (place.names ++ [name]))

/-- Follows names from a place. Only a directory can be left, and the last place need not have
anything in it. -/
def walk (tree : FileTree) (place : Place) : List String → Except FileError Place
  | [] => .ok place
  | name :: names =>
    match tree.look? place with
    | none => .error .missing
    | some (.file _) => .error .notDirectory
    | some .directory =>
      match child place name with
      | .ok place => tree.walk place names
      | .error error => .error error

/-- The number of bytes in the longest path. -/
def maxPath : Nat := 4095

/-- The place that a path leads to. A slash at the end asks for a directory. -/
def locate (tree : FileTree) (path : String) : Except FileError Place :=
  if path.toList.contains '\x00' then .error .nulInName
  else if path.isEmpty then .error .missing
  else if maxPath < path.utf8ByteSize then .error .nameTooLong
  else
    tree.walk (.below (if path.startsWith "/" then [] else tree.current)) (Path.components path)

/-- The place of a path and what is there. -/
def find (tree : FileTree) (path : String) : Except FileError (Place × Entry) :=
  match tree.locate path with
  | .error error => .error error
  | .ok place =>
    match tree.look? place with
    | none => .error .missing
    | some entry => .ok (place, entry)

def kind (tree : FileTree) (path : String) : Except FileError FileKind :=
  (tree.find path).map fun found => found.2.kind

/-- The last name of each entry that lies directly in a directory. -/
def namesBelow (tree : FileTree) (names : List String) : List String :=
  tree.entries.filterMap fun entry =>
    if entry.1.dropLast = names then entry.1.getLast? else none

def names (tree : FileTree) (path : String) : Except FileError (List String) :=
  match tree.find path with
  | .error error => .error error
  | .ok (_, .file _) => .error .notDirectory
  | .ok (place, .directory) => .ok (tree.namesBelow place.names)

def read (tree : FileTree) (path : String) : Except FileError ByteArray :=
  match tree.find path with
  | .error error => .error error
  | .ok (_, .directory) => .error .isDirectory
  | .ok (_, .file content) => .ok content

def write (tree : FileTree) (path : String) (content : ByteArray) : Except FileError FileTree :=
  match tree.locate path with
  | .error error => .error error
  | .ok place =>
    match tree.look? place with
    | some .directory => .error .isDirectory
    | _ => .ok (tree.put place.names (.file content))

instance : FileAccess (StateM FileTree) where
  kind path := return (← get).kind path
  names path := return (← get).names path
  read path := return (← get).read path
  write path content := do
    match (← get).write path content with
    | .ok tree => set tree; return .ok ()
    | .error error => return .error error

end FileTree

end Jack
