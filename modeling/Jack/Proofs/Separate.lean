import Jack.Files.Disk
import Jack.Proofs.Decoding
import Jack.Proofs.Output
import Jack.Proofs.Sources

namespace Jack

namespace FileTree

variable {tree : FileTree} {path : String} {place : Place} {content : ByteArray}

/-- Where no directory is, a file is made or replaced. -/
theorem write_of_locate (located : tree.locate path = .ok place)
    (notDirectory : tree.look? place ≠ some .directory) :
    tree.write path content = .ok (tree.put place.names (.file content)) := by
  simp only [write, located]

/-- An entry is found where it was put, if no directory was there. -/
theorem look?_put_self (notDirectory : tree.look? place ≠ some .directory) (entry : Entry) :
    (tree.put place.names entry).look? place = some entry := by
  have passed : ¬place.names <+: tree.current :=
    fun isPrefix => notDirectory (look?_current isPrefix)
  rw [look?_put, if_pos ⟨rfl, passed⟩]

end FileTree

namespace Disk

variable {disk other : Disk} {path : String} {place : Place}

theorem run_kind : (FileAccess.kind path : StateM Disk _).run disk = (disk.kind path, disk) :=
  rfl

theorem run_names : (FileAccess.names path : StateM Disk _).run disk = (disk.names path, disk) :=
  rfl

theorem run_read : (FileAccess.read path : StateM Disk _).run disk = (disk.read path, disk) :=
  rfl

theorem run_write (content : ByteArray) :
    (FileAccess.write path content : StateM Disk _).run disk =
      match disk.write path content with
      | .ok after => (.ok (), after)
      | .error error => (.error error, disk) := by
  change ((match disk.write path content with
    | .ok after => do set after; return .ok ()
    | .error error => return .error error : StateM Disk (Except FileError Unit)).run disk) = _
  cases disk.write path content <;> rfl

theorem permit_eq (use : Use) (located : disk.tree.locate path = .ok place) :
    disk.permit use path =
      match disk.refusal use place with
      | some error => .error error
      | none => .ok () := by
  cases refused : disk.refusal use place <;> simp only [permit, located, refused]

theorem kind_eq_ok {kind : FileKind} : disk.kind path = .ok kind ↔
    ∃ place, disk.tree.locate path = .ok place ∧ disk.refusal .inspect place = none ∧
      disk.tree.kind path = .ok kind := by
  cases located : disk.tree.locate path with
  | error error =>
    have refused : disk.permit .inspect path = .error error := by
      simp only [permit, located]
    rw [Disk.kind, refused]
    simp [bind, Except.bind]
  | ok place =>
    rw [Disk.kind, permit_eq .inspect located]
    cases shown : disk.refusal .inspect place <;> simp [bind, Except.bind, shown]

/-- What is at a place that may be inspected is seen from the path to it. -/
theorem kind_of_locate {entry : Entry} (located : disk.tree.locate path = .ok place)
    (found : disk.tree.look? place = some entry) (shown : disk.refusal .inspect place = none) :
    disk.kind path = .ok entry.kind := by
  have isKind : disk.tree.kind path = .ok entry.kind :=
    FileTree.kind_eq_ok.2 ⟨place, entry, located, found, rfl⟩
  exact kind_eq_ok.2 ⟨place, located, shown, isKind⟩

/-- Two disks with the same directories, on which a place holds the same and is used in the same
way. -/
structure Agrees (disk other : Disk) (place : Place) : Prop where
  refusal : other.refusal = disk.refusal
  current : other.tree.current = disk.tree.current
  directories : ∀ place,
    disk.tree.look? place = some .directory ↔ other.tree.look? place = some .directory
  same : other.tree.look? place = disk.tree.look? place

theorem Agrees.refl (disk : Disk) (place : Place) : disk.Agrees disk place :=
  ⟨rfl, rfl, fun _ => Iff.rfl, rfl⟩

theorem Agrees.located (agrees : disk.Agrees other place)
    (located : disk.tree.locate path = .ok place) : other.tree.locate path = .ok place :=
  (FileTree.locate_congr agrees.current agrees.directories).1 located

theorem Agrees.read (agrees : disk.Agrees other place)
    (located : disk.tree.locate path = .ok place) : other.read path = disk.read path := by
  have tree : other.tree.read path = disk.tree.read path := by
    simp only [FileTree.read, FileTree.find, agrees.located located, located, agrees.same]
  rw [Disk.read, Disk.read, permit_eq .read (agrees.located located), permit_eq .read located,
    agrees.refusal, tree]

/-- Either a place cannot be written, whatever is to be written, or a file is made at it. -/
theorem write_cases (located : disk.tree.locate path = .ok place) :
    (∃ error, ∀ other, disk.Agrees other place → ∀ content,
      other.write path content = .error error) ∨
    disk.tree.look? place ≠ some .directory ∧
      ∀ other, disk.Agrees other place → ∀ content, other.write path content =
        .ok { other with tree := other.tree.put place.names (.file content) } := by
  have permits {other : Disk} (agrees : disk.Agrees other place) :
      other.permit .write path = disk.permit .write path := by
    rw [permit_eq .write (agrees.located located), permit_eq .write located, agrees.refusal]
  cases permit : disk.permit .write path with
  | error error =>
    refine .inl ⟨error, fun other agrees content => ?_⟩
    rw [Disk.write, permits agrees, permit]
    rfl
  | ok =>
    by_cases isDirectory : disk.tree.look? place = some .directory
    · refine .inl ⟨.isDirectory, fun other agrees content => ?_⟩
      rw [Disk.write, permits agrees, permit, FileTree.write, agrees.located located]
      simp only [agrees.same, isDirectory]
      rfl
    · refine .inr ⟨isDirectory, fun other agrees content => ?_⟩
      have notDirectory : other.tree.look? place ≠ some .directory := agrees.same ▸ isDirectory
      rw [Disk.write, permits agrees, permit,
        FileTree.write_of_locate (agrees.located located) notDirectory]
      rfl

/-- The same for a path that need not lead to a place. -/
theorem write_outcome (disk : Disk) (path : String) :
    (∃ error, ∀ content, disk.write path content = .error error) ∨
    ∃ place, disk.tree.locate path = .ok place ∧ disk.tree.look? place ≠ some .directory ∧
      ∀ content, disk.write path content =
        .ok { disk with tree := disk.tree.put place.names (.file content) } := by
  cases located : disk.tree.locate path with
  | error error =>
    refine .inl ⟨error, fun content => ?_⟩
    simp only [Disk.write, permit, located]
    rfl
  | ok place =>
    obtain ⟨error, refused⟩ | ⟨notDirectory, wrote⟩ := write_cases located
    · exact .inl ⟨error, refused disk (.refl _ _)⟩
    · exact .inr ⟨place, rfl, notDirectory, wrote disk (.refl _ _)⟩

/-- Writing to a path changes no more than the place that it leads to. -/
theorem rewrites_of_write {content : ByteArray} (wrote : disk.write path content = .ok other) :
    disk.tree.Rewrites other.tree [path] ∧ other.refusal = disk.refusal := by
  rw [Disk.write] at wrote
  cases permit : disk.permit .write path with
  | error error =>
    rw [permit] at wrote
    cases wrote
  | ok =>
    rw [permit] at wrote
    cases made : disk.tree.write path content with
    | error error =>
      rw [made] at wrote
      cases wrote
    | ok tree =>
      rw [made] at wrote
      cases wrote
      exact ⟨.of_write made, rfl⟩

end Disk

namespace Batch

variable {disk other after : Disk} {source : String} {place target : Place} {report : Report}

/-- What compiling one source by itself gives and leaves. -/
def alone (limit : Nat) (disk : Disk) (source : String) : (List Message × Report) × Disk :=
  (compileSource limit source : StateM Disk _).run disk

theorem run_compileFile (limit : Nat) (source output : String) (disk : Disk) :
    (compileFile limit source output : StateM Disk _).run disk =
      match disk.read source with
      | .error error => (([], .error (.file error)), disk)
      | .ok bytes =>
        match Text.Utf8.decode bytes with
        | .error error => (([], .error (.encoding error)), disk)
        | .ok text =>
          let compilation := Compilation.ofSource limit text .unlimited
          match disk.write output compilation.sink.held with
          | .error error => (([], .error (.file error)), disk)
          | .ok after =>
            ((compilation.messages, compilation.result.mapError .compilation), after) := by
  rw [compileFile, run_bind, Disk.run_read]
  cases disk.read source with
  | error error => rfl
  | ok bytes =>
    dsimp only
    cases Text.Utf8.decode bytes with
    | error error => rfl
    | ok text =>
      dsimp only
      rw [run_bind, Disk.run_write]
      cases disk.write output (Compilation.ofSource limit text .unlimited).sink.held <;> rfl

theorem alone_eq (limit : Nat) (disk : Disk) (source : String) :
    let ran := (compileFile limit source (outputPath source) : StateM Disk _).run disk
    let report : Report := ⟨source, outputPath source, ran.1.2⟩
    alone limit disk source = ((ran.1.1 ++ [report.message], report), ran.2) :=
  rfl

theorem source_alone (limit : Nat) (disk : Disk) (source : String) :
    (alone limit disk source).1.2.source = source :=
  rfl

theorem output_alone (limit : Nat) (disk : Disk) (source : String) :
    (alone limit disk source).1.2.output = outputPath source :=
  rfl

/-- Compiling a source changes no more than the place of its output. -/
theorem rewrites_alone (limit : Nat) (disk : Disk) (source : String) :
    disk.tree.Rewrites (alone limit disk source).2.tree [outputPath source] ∧
      (alone limit disk source).2.refusal = disk.refusal := by
  have nothing : disk.tree.Rewrites disk.tree [outputPath source] ∧ disk.refusal = disk.refusal :=
    ⟨.refl _ _, rfl⟩
  simp only [alone_eq, run_compileFile]
  cases disk.read source with
  | error error => exact nothing
  | ok bytes =>
    dsimp only
    cases Text.Utf8.decode bytes with
    | error error => exact nothing
    | ok text =>
      dsimp only
      cases wrote : disk.write (outputPath source)
          (Compilation.ofSource limit text .unlimited).sink.held with
      | error error => exact nothing
      | ok after => exact Disk.rewrites_of_write wrote

/-- What a source comes to depends on the places of the source and of its output only. -/
theorem alone_congr (limit : Nat) (located : disk.tree.locate source = .ok place)
    (written : disk.tree.locate (outputPath source) = .ok target)
    (sameSource : disk.Agrees other place) (sameOutput : disk.Agrees other target) :
    (alone limit other source).1 = (alone limit disk source).1 ∧
      (alone limit other source).2.tree.look? target =
        (alone limit disk source).2.tree.look? target := by
  simp only [alone_eq, run_compileFile, sameSource.read located]
  cases disk.read source with
  | error error => exact ⟨rfl, sameOutput.same⟩
  | ok bytes =>
    dsimp only
    cases Text.Utf8.decode bytes with
    | error error => exact ⟨rfl, sameOutput.same⟩
    | ok text =>
      dsimp only
      obtain ⟨error, refused⟩ | ⟨notDirectory, wrote⟩ := Disk.write_cases written
      · rw [refused disk (.refl _ _), refused other sameOutput]
        exact ⟨rfl, sameOutput.same⟩
      · rw [wrote disk (.refl _ _), wrote other sameOutput]
        have notDirectory' : other.tree.look? target ≠ some .directory :=
          sameOutput.same ▸ notDirectory
        exact ⟨rfl, (FileTree.look?_put_self notDirectory' _).trans
          (FileTree.look?_put_self notDirectory _).symm⟩

/-- Whether paths lead to places for a source and for its output. -/
def Placed (tree : FileTree) (source : String) : Prop :=
  (∃ place, tree.locate source = .ok place) ∧ ∃ place, tree.locate (outputPath source) = .ok place

/-- Whether the output of a source is written neither over another one nor over the output of it. -/
def Clear (tree : FileTree) (first second : String) : Prop :=
  tree.locate (outputPath first) ≠ tree.locate second ∧
    tree.locate (outputPath first) ≠ tree.locate (outputPath second)

section Rewriting

variable {tree after : FileTree} {paths : List String} (rewrites : tree.Rewrites after paths)

include rewrites

theorem Placed.kept {source : String} (placed : Placed tree source) : Placed after source := by
  obtain ⟨⟨place, located⟩, target, written⟩ := placed
  exact ⟨⟨place, rewrites.locate_iff.1 located⟩, target, rewrites.locate_iff.1 written⟩

theorem Clear.kept {first second : String} (clear : Clear tree first second)
    (isFirst : Placed tree first) (isSecond : Placed tree second) : Clear after first second := by
  have same {path : String} (placed : ∃ place, tree.locate path = .ok place) :
      after.locate path = tree.locate path := by
    obtain ⟨place, located⟩ := placed
    rw [located]
    exact rewrites.locate_iff.1 located
  rw [Clear, same isFirst.2, same isSecond.1, same isSecond.2]
  exact clear

end Rewriting

/-- Each of some sources has come to what it comes to alone, and nothing else has changed. -/
structure Separate (limit : Nat) (disk after : Disk) (sources : List String)
    (compiled : List (List Message × Report)) : Prop where
  reports : compiled = sources.map fun source => (alone limit disk source).1
  outputs : ∀ source ∈ sources, ∀ place, disk.tree.locate (outputPath source) = .ok place →
    after.tree.look? place = (alone limit disk source).2.tree.look? place
  rewrites : disk.tree.Rewrites after.tree (sources.map outputPath)
  refusal : after.refusal = disk.refusal

/-- Sources whose outputs are written over nothing that matters to the others are compiled one after
the other as they are compiled alone. -/
theorem separate_mapM (limit : Nat) {sources : List String}
    (placed : ∀ source ∈ sources, Placed disk.tree source)
    (clear : sources.Pairwise (Clear disk.tree)) :
    Separate limit disk ((sources.mapM (compileSource limit) : StateM Disk _).run disk).2 sources
      ((sources.mapM (compileSource limit) : StateM Disk _).run disk).1 := by
  induction sources generalizing disk with
  | nil => exact ⟨rfl, fun source member => absurd member List.not_mem_nil, .refl _ _, rfl⟩
  | cons first sources ih =>
    obtain ⟨isFirst, isOther⟩ := List.forall_mem_cons.1 placed
    obtain ⟨clearFirst, clearOthers⟩ := List.pairwise_cons.1 clear
    obtain ⟨rewrites, refusal⟩ := rewrites_alone limit disk first
    -- The first source changes nothing that the others depend on.
    have agrees {place : Place} (apart : disk.tree.locate (outputPath first) ≠ .ok place) :
        disk.Agrees (alone limit disk first).2 place :=
      ⟨refusal, rewrites.current, rewrites.directories,
        rewrites.others place (List.forall_mem_singleton.2 apart)⟩
    have same (source : String) (member : source ∈ sources) {place : Place}
        (written : disk.tree.locate (outputPath source) = .ok place) :
        (alone limit (alone limit disk first).2 source).1 = (alone limit disk source).1 ∧
          (alone limit (alone limit disk first).2 source).2.tree.look? place =
            (alone limit disk source).2.tree.look? place := by
      obtain ⟨⟨start, located⟩, -⟩ := isOther source member
      obtain ⟨apartSource, apartOutput⟩ := clearFirst source member
      exact alone_congr limit located written (agrees (located ▸ apartSource))
        (agrees (written ▸ apartOutput))
    have further := ih (fun source member => (isOther source member).kept rewrites)
      (clearOthers.imp_of_mem fun isOne isAnother clear =>
        clear.kept rewrites (isOther _ isOne) (isOther _ isAnother))
    rw [List.mapM_cons, run_bind, run_bind]
    refine ⟨?_, ?_, rewrites.append further.rewrites, further.refusal.trans refusal⟩
    · change (alone limit disk first).1 :: _ = _
      rw [List.map_cons]
      refine congrArg _ (further.reports.trans (List.map_congr_left fun source member => ?_))
      obtain ⟨-, place, written⟩ := isOther source member
      exact (same source member written).1
    · refine List.forall_mem_cons.2 ⟨fun place written => ?_, fun source member place written => ?_⟩
      · refine further.rewrites.others place (List.forall_mem_map.2 fun source member reached => ?_)
        have back := rewrites.locate_iff.2 reached
        exact (clearFirst source member).2 (written.trans back.symm)
      · have reached := rewrites.locate_iff.1 written
        exact (further.outputs source member place reached).trans (same source member written).2

end Batch

end Jack
