import Jack.Proofs.Listing
import Jack.Proofs.Separate

namespace Jack.Batch

variable {disk : Disk} {path source name : String} {names : List String}

section Names

variable {other : String}

/-- The output of a source in a directory lies in this directory too. -/
theorem outputPath_join (path : String) (proper : Path.Proper name) :
    outputPath (Path.join path name) = Path.join path (Path.renamed name outputExtension) := by
  obtain ⟨front, leads, -, joined⟩ := Path.exists_leads_join path
  rw [outputPath, joined, joined, Path.withExtension_append leads proper]

/-- The name of an output: that of an entry again, or the one of the directory above, if the name of
the source is nothing but dots in front of its extension. -/
theorem isEntry_renamed (isEntry : Path.IsEntry name)
    (extension : Path.extension? name = some sourceExtension) :
    ∃ stem, name = stem ++ "." ++ sourceExtension ∧
      (Path.renamed name outputExtension = ".." ∧ stem = "." ∨
        Path.renamed name outputExtension = stem ++ "." ++ outputExtension ∧
          Path.IsEntry (stem ++ "." ++ outputExtension)) := by
  obtain ⟨stem, inhabited, spelt, renames⟩ := Path.exists_stem isEntry.toProper extension
  refine ⟨stem, spelt, ?_⟩
  by_cases isDot : stem = "."
  · exact .inl ⟨(renames _).trans (if_pos isDot), isDot⟩
  · have isRenamed : Path.renamed name outputExtension = stem ++ "." ++ outputExtension :=
      (renames _).trans (if_neg isDot)
    have size := isEntry.short
    have noNul := isEntry.noNul
    have noSlash : '/' ∉ outputExtension.toList := by decide
    have whole := Path.slash_notMem_renamed isEntry.whole noSlash
    have length : (stem ++ "." ++ outputExtension).length = stem.length + 3 := by
      rw [String.length_append, String.length_append]
      rfl
    have differs (short : String) (isShort : short.length < 3) :
        stem ++ "." ++ outputExtension ≠ short := by
      rintro rfl
      omega
    rw [spelt, String.utf8ByteSize_append] at size
    rw [spelt, String.toList_append, List.mem_append, not_or] at noNul
    refine .inr ⟨isRenamed, ⟨⟨differs "" (by decide), differs "." (by decide),
      differs ".." (by decide), isRenamed ▸ whole⟩, ?_, ?_⟩⟩
    · rw [String.toList_append, List.mem_append]
      exact not_or.2 ⟨noNul.1, by decide⟩
    · have shorter : outputExtension.utf8ByteSize ≤ sourceExtension.utf8ByteSize := by decide
      rw [String.utf8ByteSize_append]
      omega

theorem utf8ByteSize_renamed_le (isEntry : Path.IsEntry name)
    (extension : Path.extension? name = some sourceExtension) :
    (Path.renamed name outputExtension).utf8ByteSize ≤ name.utf8ByteSize := by
  obtain ⟨stem, rfl, ⟨isRenamed, rfl⟩ | ⟨isRenamed, -⟩⟩ := isEntry_renamed isEntry extension
  · rw [isRenamed]
    decide
  · have shorter : outputExtension.utf8ByteSize ≤ sourceExtension.utf8ByteSize := by decide
    have size (last : String) : (stem ++ "." ++ last).utf8ByteSize =
        (stem ++ ".").utf8ByteSize + last.utf8ByteSize :=
      String.utf8ByteSize_append
    rw [isRenamed, size, size]
    omega

/-- The place of an output next to a source. -/
theorem exists_child_renamed (names : List String) (isEntry : Path.IsEntry name)
    (extension : Path.extension? name = some sourceExtension) :
    ∃ next, FileTree.child (.below names) (Path.renamed name outputExtension) = .ok next := by
  obtain ⟨stem, -, ⟨isRenamed, -⟩ | ⟨isRenamed, isOutput⟩⟩ := isEntry_renamed isEntry extension
  · rw [isRenamed]
    cases names <;> exact ⟨_, rfl⟩
  · rw [isRenamed]
    exact ⟨_, FileTree.child_of_isEntry isOutput⟩

/-- One step up leads to no entry of the directory. -/
theorem ne_below_of_up {last : String} {next : Place}
    (up : FileTree.child (.below names) ".." = .ok next) : next ≠ .below (names ++ [last]) := by
  intro isEntry
  obtain ⟨here, -⟩ | ⟨-, rfl⟩ | ⟨-, -, notUp, -⟩ := FileTree.child_cases up
  · exact absurd here (by decide)
  · have length : names.dropLast.length = (names ++ [last]).length :=
      congrArg List.length (Place.below.inj isEntry)
    rw [List.length_append, List.length_dropLast, List.length_singleton] at length
    omega
  · exact absurd rfl notUp

/-- Outputs of different sources are at different places. -/
theorem eq_of_child_renamed {next : Place} (isEntry : Path.IsEntry name)
    (isOther : Path.IsEntry other) (extension : Path.extension? name = some sourceExtension)
    (extension' : Path.extension? other = some sourceExtension)
    (first : FileTree.child (.below names) (Path.renamed name outputExtension) = .ok next)
    (second : FileTree.child (.below names) (Path.renamed other outputExtension) = .ok next) :
    name = other := by
  obtain ⟨stem, rfl, ⟨isRenamed, rfl⟩ | ⟨isRenamed, isOutput⟩⟩ :=
      isEntry_renamed isEntry extension <;>
    obtain ⟨stem', rfl, ⟨isRenamed', rfl⟩ | ⟨isRenamed', isOutput'⟩⟩ :=
      isEntry_renamed isOther extension'
  · rfl
  · rw [isRenamed] at first
    rw [isRenamed', FileTree.child_of_isEntry isOutput'] at second
    exact absurd (Except.ok.inj second).symm (ne_below_of_up first)
  · rw [isRenamed'] at second
    rw [isRenamed, FileTree.child_of_isEntry isOutput] at first
    exact absurd (Except.ok.inj first).symm (ne_below_of_up second)
  · rw [isRenamed, FileTree.child_of_isEntry isOutput] at first
    rw [isRenamed', FileTree.child_of_isEntry isOutput', ← first] at second
    have same := List.append_cancel_left (Place.below.inj (Except.ok.inj second))
    have stems := (String.append_left_inj outputExtension).1 (List.cons.inj same).1
    exact congrArg (· ++ sourceExtension) stems.symm

end Names

/-- Sources of a directory: files that lie directly in it and have the extension of sources. The
system must let them be looked at, and the path to them must not be too long for it. -/
inductive IsSource (disk : Disk) (path : String) : String → Prop
  | intro {names : List String} {name : String} {content : ByteArray}
      (leads : disk.tree.locate path = .ok (.below names))
      (isFile : disk.tree.look? (.below (names ++ [name])) = some (.file content))
      (extension : Path.extension? name = some sourceExtension)
      (short : (Path.join path name).utf8ByteSize ≤ FileTree.maxPath)
      (shown : disk.refusal .inspect (.below (names ++ [name])) = none) :
      IsSource disk path (Path.join path name)

section Sources

theorem utf8ByteSize_join_le (path : String) {other : String}
    (shorter : other.utf8ByteSize ≤ name.utf8ByteSize) :
    (Path.join path other).utf8ByteSize ≤ (Path.join path name).utf8ByteSize := by
  obtain ⟨front, -, -, joined⟩ := Path.exists_leads_join path
  rw [joined, joined, String.utf8ByteSize_append, String.utf8ByteSize_append]
  omega

variable (leads : disk.tree.locate path = .ok (.below names))
  (isDirectory : disk.tree.look? (.below names) = some .directory)

include leads isDirectory

theorem locate_source (isEntry : Path.IsEntry name)
    (short : (Path.join path name).utf8ByteSize ≤ FileTree.maxPath) :
    disk.tree.locate (Path.join path name) = .ok (.below (names ++ [name])) :=
  FileTree.locate_join leads isDirectory isEntry.whole isEntry.noNul short
    (FileTree.child_of_isEntry isEntry)

theorem locate_output (isEntry : Path.IsEntry name)
    (extension : Path.extension? name = some sourceExtension)
    (short : (Path.join path name).utf8ByteSize ≤ FileTree.maxPath) :
    ∃ next, FileTree.child (.below names) (Path.renamed name outputExtension) = .ok next ∧
      disk.tree.locate (outputPath (Path.join path name)) = .ok next := by
  obtain ⟨next, step⟩ := exists_child_renamed names isEntry extension
  refine ⟨next, step, ?_⟩
  have smaller := utf8ByteSize_join_le path (utf8ByteSize_renamed_le isEntry extension)
  have noSlash : '/' ∉ outputExtension.toList := by decide
  have whole := Path.slash_notMem_renamed isEntry.whole noSlash
  have noNul : '\x00' ∉ (Path.renamed name outputExtension).toList := by
    obtain ⟨stem, -, ⟨isRenamed, -⟩ | ⟨isRenamed, isOutput⟩⟩ := isEntry_renamed isEntry extension
    · rw [isRenamed]
      decide
    · exact isRenamed ▸ isOutput.noNul
  rw [outputPath_join path isEntry.toProper]
  exact FileTree.locate_join leads isDirectory whole noNul (smaller.trans short) step

/-- What is known of a source in a directory. -/
theorem IsSource.exists_name (named : disk.tree.WellNamed) (isSource : IsSource disk path source) :
    ∃ name, source = Path.join path name ∧ Path.IsEntry name ∧
      Path.extension? name = some sourceExtension ∧
      source.utf8ByteSize ≤ FileTree.maxPath ∧ disk.kind source = .ok .regular ∧
      name ∈ disk.tree.namesBelow names := by
  obtain @⟨others, name, content, leads', isFile, extension, short, shown⟩ := isSource
  obtain rfl : names = others := Place.below.inj (Except.ok.inj (leads.symm.trans leads'))
  have listed := FileTree.mem_namesBelow_of_look? isFile
  have isEntry := named.isEntry listed
  have located := locate_source leads isDirectory isEntry short
  exact ⟨name, rfl, isEntry, extension, short, Disk.kind_of_locate located isFile shown, listed⟩

theorem IsSource.placed (named : disk.tree.WellNamed) (isSource : IsSource disk path source) :
    Placed disk.tree source := by
  obtain ⟨name, rfl, isEntry, extension, short, -⟩ := isSource.exists_name leads isDirectory named
  obtain ⟨next, -, written⟩ := locate_output leads isDirectory isEntry extension short
  exact ⟨⟨_, locate_source leads isDirectory isEntry short⟩, next, written⟩

/-- Different sources in a directory do not get in each other's way. -/
theorem IsSource.clear {other : String} (named : disk.tree.WellNamed)
    (isSource : IsSource disk path source) (isOther : IsSource disk path other)
    (differ : source ≠ other) : Clear disk.tree source other := by
  obtain ⟨name, rfl, isEntry, extension, short, regular, -⟩ :=
    isSource.exists_name leads isDirectory named
  obtain ⟨name', rfl, isEntry', extension', short', regular', -⟩ :=
    isOther.exists_name leads isDirectory named
  obtain ⟨-, -, -, isRegular⟩ := Disk.kind_eq_ok.1 regular
  obtain ⟨-, -, -, isRegular'⟩ := Disk.kind_eq_ok.1 regular'
  constructor
  · intro reached
    have reached := extension?_of_reached isRegular' isRegular reached
    rw [extension?_join isRegular', extension'] at reached
    exact absurd (Option.some.inj reached) (by decide)
  · intro reached
    obtain ⟨next, step, written⟩ := locate_output leads isDirectory isEntry extension short
    obtain ⟨next', step', written'⟩ := locate_output leads isDirectory isEntry' extension' short'
    obtain rfl := Except.ok.inj (written.symm.trans (reached.trans written'))
    have same := eq_of_child_renamed isEntry isEntry' extension extension' step step'
    exact differ (congrArg (Path.join path) same)

end Sources

end Jack.Batch
