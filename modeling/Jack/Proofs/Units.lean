import Jack.Proofs.Directory

namespace Jack.Batch

variable {disk : Disk} {path unit : String} {units : List String} {counts : String → Prop}

/-- Files that lie directly in a directory and have the extension of sources, whether the system
lets them be looked at or not. -/
inductive LiesIn (disk : Disk) (path : String) : String → Prop
  | intro {names : List String} {name : String} {content : ByteArray}
      (leads : disk.tree.locate path = .ok (.below names))
      (isDirectory : disk.tree.look? (.below names) = some .directory)
      (isFile : disk.tree.look? (.below (names ++ [name])) = some (.file content))
      (extension : Path.extension? name = some sourceExtension) :
      LiesIn disk path (Path.join path name)

/-- The units that a path names, in the order of their paths: a file itself, and all that count in a
directory that can be listed. -/
inductive Units (disk : Disk) (path : String) (counts : String → Prop) : List String → Prop
  | file (regular : disk.kind path = .ok .regular) : Units disk path counts [path]
  | directory {names units : List String} (isDirectory : disk.kind path = .ok .directory)
      (listed : disk.names path = .ok names) (ascending : units.Pairwise (· < ·))
      (all : ∀ unit, unit ∈ units ↔ counts unit) : Units disk path counts units

/-- A path names its units in one way. -/
theorem Units.unique {others : List String} (isOne : Units disk path counts units)
    (isOther : Units disk path counts others) : units = others := by
  cases isOne with
  | file regular =>
    cases isOther with
    | file => rfl
    | directory isDirectory => cases regular.symm.trans isDirectory
  | directory isDirectory listed ascending all =>
    cases isOther with
    | file regular => cases regular.symm.trans isDirectory
    | directory _ _ ascending' all' =>
      exact eq_of_ascending ascending ascending' fun unit => (all unit).trans (all' unit).symm

/-- What counts matters in a directory only. -/
theorem Units.congr {others : String → Prop} (isUnits : Units disk path counts units)
    (same : disk.kind path = .ok .directory → ∀ unit, counts unit ↔ others unit) :
    Units disk path others units := by
  cases isUnits with
  | file regular => exact .file regular
  | directory isDirectory listed ascending all =>
    have all' (unit : String) : unit ∈ units ↔ others unit :=
      (all unit).trans (same isDirectory unit)
    exact .directory isDirectory listed ascending all'

/-- Of the files in a directory exactly those that can be looked at are found. -/
theorem isSource_iff (named : disk.tree.WellNamed) (isDirectory : disk.kind path = .ok .directory) :
    IsSource disk path unit ↔ LiesIn disk path unit ∧ disk.kind unit = .ok .regular := by
  constructor
  · intro isSource
    obtain ⟨names, leads, isHere⟩ := exists_below isDirectory
    obtain ⟨-, -, -, -, -, regular, -⟩ := isSource.exists_name leads isHere named
    obtain @⟨others, name, content, leads', isFile, extension, -, -⟩ := isSource
    obtain rfl := Place.below.inj (Except.ok.inj (leads.symm.trans leads'))
    exact ⟨.intro leads isHere isFile extension, regular⟩
  · rintro ⟨@⟨names, name, content, leads, isHere, isFile, extension⟩, regular⟩
    have isEntry := named.isEntry (FileTree.mem_namesBelow_of_look? isFile)
    obtain ⟨place, located, shown, -⟩ := Disk.kind_eq_ok.1 regular
    have short := (FileTree.locate_eq_ok.1 located).2.2.1
    have same := locate_source leads isHere isEntry short
    obtain rfl := Except.ok.inj (located.symm.trans same)
    exact .intro leads isFile extension short shown

/-- A system that keeps nothing back lets every file in a directory be looked at, unless the path to
the directory is nearly as long as a path can be. -/
theorem LiesIn.regular (named : disk.tree.WellNamed) (liesIn : LiesIn disk path unit)
    (short : path.utf8ByteSize + 256 ≤ FileTree.maxPath)
    (shown : ∀ place, disk.refusal .inspect place = none) : disk.kind unit = .ok .regular := by
  obtain @⟨names, name, content, leads, isHere, isFile, -⟩ := liesIn
  have isEntry := named.isEntry (FileTree.mem_namesBelow_of_look? isFile)
  have small := isEntry.short
  have size := Path.utf8ByteSize_join_le path name
  have fits : (Path.join path name).utf8ByteSize ≤ FileTree.maxPath := by omega
  exact Disk.kind_of_locate (locate_source leads isHere isEntry fits) isFile (shown _)

/-- Where every file in the directory can be looked at, none is left out. -/
theorem units_isSource_eq (named : disk.tree.WellNamed)
    (shown : ∀ unit, LiesIn disk path unit → disk.kind unit = .ok .regular) :
    Units disk path (IsSource disk path) = Units disk path (LiesIn disk path) := by
  have same (isDirectory : disk.kind path = .ok .directory) (unit : String) :
      IsSource disk path unit ↔ LiesIn disk path unit :=
    (isSource_iff named isDirectory).trans (and_iff_left_of_imp (shown unit))
  funext units
  refine propext ⟨fun isUnits => isUnits.congr same, fun isUnits => ?_⟩
  exact isUnits.congr fun isDirectory unit => (same isDirectory unit).symm

theorem units_sortedAmong {names : List String} (named : disk.tree.WellNamed)
    (isDirectory : disk.kind path = .ok .directory) (listed : disk.names path = .ok names) :
    Units disk path (IsSource disk path) (sortedAmong disk path names) := by
  obtain ⟨refused, isRefused⟩ | ⟨below, leads, isHere, isListed⟩ := names_cases isDirectory
  · cases listed.symm.trans isRefused
  · obtain rfl := Except.ok.inj (listed.symm.trans isListed)
    exact .directory isDirectory listed
      (ascending_sortedAmong disk path (disk.tree.nodup_namesBelow below))
      fun unit => List.mem_mergeSort.trans (mem_foundAmong leads isHere named)

/-- The units are found, and an error says that there are none. -/
theorem findSources_cases (path : String) (named : disk.tree.WellNamed) :
    (∃ units, Units disk path (IsSource disk path) units ∧ units ≠ [] ∧
      (findSources path : StateM Disk _).run disk = (.ok units, disk)) ∨
    (∃ error, (findSources path : StateM Disk _).run disk = (.error error, disk)) ∧
      ∀ units, Units disk path (IsSource disk path) units → units = [] := by
  cases kind : disk.kind path with
  | error error =>
    refine .inr ⟨⟨.file error, ?_⟩, ?_⟩
    · rw [findSources, run_bind, Disk.run_kind, kind]
      rfl
    · rintro units (regular | ⟨isDirectory, -, -, -⟩)
      · cases kind.symm.trans regular
      · cases kind.symm.trans isDirectory
  | ok found =>
    cases found with
    | regular => exact .inl ⟨[path], .file kind, List.cons_ne_nil _ _, run_findSources_file kind⟩
    | special =>
      obtain ⟨-, -, -, special⟩ := Disk.kind_eq_ok.1 kind
      exact absurd special FileTree.kind_ne_special
    | directory =>
      rw [run_findSources kind]
      cases listed : disk.names path with
      | error error =>
        refine .inr ⟨⟨_, rfl⟩, ?_⟩
        rintro units (regular | ⟨-, isListed, -, -⟩)
        · cases kind.symm.trans regular
        · cases listed.symm.trans isListed
      | ok names =>
        have sorted := units_sortedAmong named kind listed
        have perm : (sortedAmong disk path names).Perm (foundAmong disk path names) :=
          List.mergeSort_perm _ _
        dsimp only
        split
        · rename_i nothing
          refine .inr ⟨⟨_, rfl⟩, fun units isUnits => ?_⟩
          rw [List.isEmpty_iff.1 nothing] at perm
          exact (isUnits.unique sorted).trans perm.eq_nil
        · rename_i something
          refine .inl ⟨_, sorted, fun nothing => something ?_, rfl⟩
          exact List.isEmpty_iff.2 (nothing ▸ perm).nil_eq.symm

theorem Units.run_findSources (isUnits : Units disk path (IsSource disk path) units)
    (inhabited : units ≠ []) (named : disk.tree.WellNamed) :
    (findSources path : StateM Disk _).run disk = (.ok units, disk) := by
  obtain ⟨others, isOthers, -, found⟩ | ⟨-, noUnits⟩ := findSources_cases path named
  · rw [isUnits.unique isOthers]
    exact found
  · exact absurd (noUnits units isUnits) inhabited

/-- Units are compiled one after the other as each is compiled alone. -/
theorem Units.separate (limit : Nat) (named : disk.tree.WellNamed)
    (isUnits : Units disk path (IsSource disk path) units) :
    let ran := (units.mapM (compileSource limit) : StateM Disk _).run disk
    Separate limit disk ran.2 units ran.1 := by
  cases isUnits with
  | file regular =>
    obtain ⟨rewrites, refusal⟩ := rewrites_alone limit disk path
    exact ⟨rfl, List.forall_mem_singleton.2 fun _ _ => rfl, rewrites, refusal⟩
  | directory isDirectory listed ascending all =>
    obtain ⟨names, leads, isHere⟩ := exists_below isDirectory
    exact separate_sources limit leads isHere named ascending fun unit member => (all unit).1 member

end Jack.Batch
