import Jack.Proofs.Outputs
import Mathlib.Data.List.Nodup

namespace Jack.Batch

variable {disk after : Disk} {path source name : String} {names : List String} {report : Report}
  {place target : Place}

theorem run_isRegular (disk : Disk) (path : String) :
    (isRegular path : StateM Disk Bool).run disk =
      (decide (disk.kind path = .ok .regular), disk) := by
  rw [isRegular, run_bind, Disk.run_kind]
  cases disk.kind path with
  | error error => rfl
  | ok kind => cases kind <;> rfl

/-- The sources that are found among the names in a directory. -/
def foundAmong (disk : Disk) (path : String) (names : List String) : List String :=
  ((names.filter fun name => Path.extension? name = some sourceExtension).map
    (Path.join path)).filter fun source => disk.kind source = .ok .regular

/-- The same sources in the order of their paths. -/
def sortedAmong (disk : Disk) (path : String) (names : List String) : List String :=
  (foundAmong disk path names).mergeSort fun first second => first ≤ second

theorem run_findSources (isDirectory : disk.kind path = .ok .directory) :
    (findSources path : StateM Disk _).run disk =
      match disk.names path with
      | .error error => (.error (.file error), disk)
      | .ok names =>
        if (foundAmong disk path names).isEmpty then (.error (.noSources path), disk)
        else (.ok (sortedAmong disk path names), disk) := by
  rw [findSources, run_bind, Disk.run_kind, isDirectory]
  dsimp only
  rw [run_bind, Disk.run_names]
  cases disk.names path with
  | error error => rfl
  | ok names =>
    dsimp only
    have looks (path : String) : ((isRegular path : StateM Disk Bool).run disk).2 = disk := by
      rw [run_isRegular]
    rw [run_bind, run_filterM looks]
    simp only [run_isRegular]
    rw [← foundAmong]
    split <;> rfl

theorem run_compilePath (limit : Nat) (isDirectory : disk.kind path = .ok .directory) :
    (compilePath limit path : StateM Disk _).run disk =
      match disk.names path with
      | .error error => (([], .error (.file error)), disk)
      | .ok names =>
        if (foundAmong disk path names).isEmpty then (([], .error (.noSources path)), disk)
        else
          let ran :=
            ((sortedAmong disk path names).mapM (compileSource limit) : StateM Disk _).run disk
          ((ran.1.flatMap Prod.fst, .ok (ran.1.map Prod.snd)), ran.2) := by
  rw [compilePath, run_bind, run_findSources isDirectory]
  cases disk.names path with
  | error error => rfl
  | ok names =>
    dsimp only
    cases (foundAmong disk path names).isEmpty <;> rfl

theorem run_findSources_file (regular : disk.kind path = .ok .regular) :
    (findSources path : StateM Disk _).run disk = (.ok [path], disk) := by
  rw [findSources, run_bind, Disk.run_kind, regular]
  rfl

/-- A path that leads to a file is compiled as this source alone. -/
theorem compilePath_file (limit : Nat) (regular : disk.kind source = .ok .regular) :
    (compilePath limit source : StateM Disk _).run disk =
      (((alone limit disk source).1.1, .ok [(alone limit disk source).1.2]),
        (alone limit disk source).2) := by
  rw [compilePath, run_bind, run_findSources_file regular]
  dsimp only
  rw [run_bind, List.mapM_cons, run_bind, run_bind]
  change (((alone limit disk source).1.1 ++ [], _), _) = _
  rw [List.append_nil]
  rfl

/-- A place that a path leads to holds what it held. -/
def Unchanged (disk after : Disk) (path : String) : Prop :=
  ∀ place, disk.tree.locate path = .ok place → after.tree.look? place = disk.tree.look? place

/-- What a report may say of one source, with what has become of its output. -/
inductive AccurateReport (limit : Nat) (disk after : Disk) (report : Report) : Prop
  | unreadable {error : FileError} (refused : disk.read report.source = .error error)
      (result : report.result = .error (.file error)) (kept : Unchanged disk after report.output)
  | notText {bytes : ByteArray} (holds : disk.read report.source = .ok bytes)
      (notText : ∀ text : String, bytes ≠ text.toUTF8)
      (result : ∃ error, report.result = .error (.encoding error))
      (kept : Unchanged disk after report.output)
  | uncreatable {text : String} {error : FileError}
      (holds : disk.read report.source = .ok text.toUTF8)
      (refused : ∀ content, disk.write report.output content = .error error)
      (result : report.result = .error (.file error)) (kept : Unchanged disk after report.output)
  | compiled {text : String} {place : Place}
      (holds : disk.read report.source = .ok text.toUTF8)
      (creatable : ∀ content, ∃ made, disk.write report.output content = .ok made)
      (result : report.result =
        (Compilation.ofSource limit text .unlimited).result.mapError .compilation)
      (leads : disk.tree.locate report.output = .ok place)
      (written : after.tree.look? place =
        some (.file (ClassCode.ofSource limit text).text.toUTF8))

theorem held_ofSource (limit : Nat) (text : String) :
    (Compilation.ofSource limit text .unlimited).sink.held =
      (ClassCode.ofSource limit text).text.toUTF8 := by
  have room : Sink.unlimited.HasRoom (ClassCode.ofSource limit text).text.toUTF8.size :=
    fun _ limited => absurd limited (Option.not_mem_none _)
  have sink := (Compilation.ofCode_eq_of_hasRoom (ClassCode.ofSource limit text) room).1
  exact (congrArg Sink.held sink).trans ByteArray.empty_append

/-- The report on a source that is compiled alone is accurate. -/
theorem accurateReport_alone (limit : Nat) (disk : Disk) (source : String) :
    AccurateReport limit disk (alone limit disk source).2 (alone limit disk source).1.2 := by
  simp only [alone_eq, run_compileFile]
  cases reads : disk.read source with
  | error error => exact .unreadable reads rfl fun _ _ => rfl
  | ok bytes =>
    dsimp only
    cases decodes : Text.Utf8.decode bytes with
    | error error =>
      refine .notText reads (fun text encodes => ?_) ⟨error, rfl⟩ fun _ _ => rfl
      rw [Text.Utf8.decode_eq_ok.2 encodes] at decodes
      cases decodes
    | ok text =>
      obtain rfl := Text.Utf8.decode_eq_ok.1 decodes
      dsimp only
      obtain ⟨error, refused⟩ | ⟨place, leads, notDirectory, wrote⟩ :=
        disk.write_outcome (outputPath source)
      · rw [refused]
        exact .uncreatable reads refused rfl fun _ _ => rfl
      · rw [wrote]
        refine .compiled reads (fun content => ⟨_, wrote content⟩) rfl leads ?_
        rw [← held_ofSource]
        exact FileTree.look?_put_self notDirectory _

/-- What becomes of a source is seen at the place of its output. -/
theorem AccurateReport.congr {limit : Nat} {other : Disk}
    (accurate : AccurateReport limit disk other report)
    (same : ∀ place, disk.tree.locate report.output = .ok place →
      after.tree.look? place = other.tree.look? place) :
    AccurateReport limit disk after report := by
  have keeps (kept : Unchanged disk other report.output) : Unchanged disk after report.output :=
    fun place leads => (same place leads).trans (kept place leads)
  cases accurate with
  | unreadable refused result kept => exact .unreadable refused result (keeps kept)
  | notText holds notText result kept => exact .notText holds notText result (keeps kept)
  | uncreatable holds refused result kept => exact .uncreatable holds refused result (keeps kept)
  | compiled holds creatable result leads written =>
    exact .compiled holds creatable result leads ((same _ leads).trans written)

theorem Separate.accurate {limit : Nat} {sources : List String}
    {compiled : List (List Message × Report)}
    (separate : Separate limit disk after sources compiled) :
    ∀ source ∈ sources, AccurateReport limit disk after (Batch.alone limit disk source).1.2 :=
  fun source member =>
    (accurateReport_alone limit disk source).congr (separate.outputs source member)

section Found

variable (leads : disk.tree.locate path = .ok (.below names))
  (isDirectory : disk.tree.look? (.below names) = some .directory)

include leads isDirectory

theorem mem_foundAmong (named : disk.tree.WellNamed) :
    source ∈ foundAmong disk path (disk.tree.namesBelow names) ↔ IsSource disk path source := by
  rw [foundAmong, List.mem_filter, List.mem_map]
  constructor
  · rintro ⟨⟨name, isName, rfl⟩, isRegular⟩
    obtain ⟨listed, extension⟩ := List.mem_filter.1 isName
    have isEntry := named.isEntry listed
    obtain ⟨place, located, shown, kind⟩ := Disk.kind_eq_ok.1 (of_decide_eq_true isRegular)
    have short := (FileTree.locate_eq_ok.1 located).2.2.1
    obtain rfl := Except.ok.inj (located.symm.trans (locate_source leads isDirectory isEntry short))
    obtain ⟨place, entry, located', found, isRegular⟩ := FileTree.kind_eq_ok.1 kind
    obtain rfl := Except.ok.inj (located.symm.trans located')
    cases entry with
    | directory => cases isRegular
    | file content => exact .intro leads found (of_decide_eq_true extension) short shown
  · intro isSource
    obtain ⟨name, rfl, -, extension, -, regular, listed⟩ :=
      isSource.exists_name leads isDirectory named
    exact ⟨⟨name, List.mem_filter.2 ⟨listed, decide_eq_true extension⟩, rfl⟩,
      decide_eq_true regular⟩

end Found

theorem nodup_foundAmong (disk : Disk) (path : String) {names : List String}
    (distinct : names.Nodup) : (foundAmong disk path names).Nodup := by
  obtain ⟨front, -, -, joined⟩ := Path.exists_leads_join path
  refine (List.Nodup.map ?_ (distinct.filter _)).filter _
  intro name other same
  rw [joined, joined] at same
  exact (String.append_right_inj front).1 same

/-- Sorting paths that are distinct makes them ascend. -/
theorem ascending_sortedAmong (disk : Disk) (path : String) {names : List String}
    (distinct : names.Nodup) : (sortedAmong disk path names).Pairwise (· < ·) := by
  have trans (first second third : String) (le : decide (first ≤ second) = true)
      (le' : decide (second ≤ third) = true) : decide (first ≤ third) = true :=
    decide_eq_true (String.le_trans (of_decide_eq_true le) (of_decide_eq_true le'))
  have total (first second : String) :
      (decide (first ≤ second) || decide (second ≤ first)) = true := by
    simpa using String.le_total first second
  have ordered := List.pairwise_mergeSort trans total (foundAmong disk path names)
  have apart := (List.mergeSort_perm (foundAmong disk path names) fun first second =>
    first ≤ second).nodup_iff.2 (nodup_foundAmong disk path distinct)
  refine (ordered.and apart).imp fun ⟨le, ne⟩ => ?_
  by_contra notLess
  exact ne (String.le_antisymm (of_decide_eq_true le) (String.not_lt.1 notLess))

/-- Lists that ascend and have the same members are one list. -/
theorem eq_of_ascending {sources others : List String} (ascending : sources.Pairwise (· < ·))
    (ascending' : others.Pairwise (· < ·))
    (same : ∀ source, source ∈ sources ↔ source ∈ others) : sources = others := by
  have distinct {sources : List String} (ascending : sources.Pairwise (· < ·)) : sources.Nodup :=
    ascending.imp String.ne_of_lt
  have perm := (List.perm_ext_iff_of_nodup (distinct ascending) (distinct ascending')).2 same
  exact perm.eq_of_pairwise (fun _ _ _ _ less greater => absurd greater (String.lt_asymm less))
    ascending ascending'

/-- There is no other order. -/
theorem sortedAmong_eq {disk : Disk} {path : String} {names sources : List String}
    (distinct : names.Nodup) (perm : (foundAmong disk path names).Perm sources)
    (ascending : sources.Pairwise (· < ·)) : sortedAmong disk path names = sources :=
  eq_of_ascending (ascending_sortedAmong disk path distinct) ascending
    fun _ => List.mem_mergeSort.trans perm.mem_iff

/-- What compiling a directory gives and leaves: every source in it is compiled as it is compiled
alone, and nothing else is done. -/
structure CompilesEach (limit : Nat) (path : String) (disk after : Disk) (messages : List Message)
    (reports : List Report) : Prop where
  inhabited : reports ≠ []
  /-- There is one report for each source, in the order of their paths. -/
  ascending : (reports.map Report.source).Pairwise (· < ·)
  sources : ∀ source, source ∈ reports.map Report.source ↔ IsSource disk path source
  beside : ∀ report ∈ reports, report.output = outputPath report.source
  /-- Compiling one of the sources alone gives the same report and the same output. -/
  alone : ∀ report ∈ reports,
    ((compilePath limit report.source : StateM Disk _).run disk).1.2 = .ok [report] ∧
      ∀ place, disk.tree.locate report.output = .ok place → after.tree.look? place =
        ((compilePath limit report.source : StateM Disk _).run disk).2.tree.look? place
  messages : messages = reports.flatMap fun report =>
    ((compilePath limit report.source : StateM Disk _).run disk).1.1
  accurate : ∀ report ∈ reports, AccurateReport limit disk after report
  /-- Nothing is written but outputs. -/
  others : ∀ place, (∀ report ∈ reports, disk.tree.locate report.output ≠ .ok place) →
    after.tree.look? place = disk.tree.look? place
  refusal : after.refusal = disk.refusal

theorem Separate.compilesEach {limit : Nat} {sources : List String}
    {compiled : List (List Message × Report)}
    (separate : Separate limit disk after sources compiled)
    (inhabited : sources ≠ []) (ascending : sources.Pairwise (· < ·))
    (isSource : ∀ source, source ∈ sources ↔ IsSource disk path source)
    (regular : ∀ source ∈ sources, disk.kind source = .ok .regular) :
    CompilesEach limit path disk after (compiled.flatMap Prod.fst) (compiled.map Prod.snd) := by
  have accurate := separate.accurate
  obtain ⟨rfl, outputs, rewrites, refusal⟩ := separate
  have reports : (sources.map fun source => (Batch.alone limit disk source).1).map Prod.snd =
      sources.map fun source => (Batch.alone limit disk source).1.2 :=
    List.map_map
  have isAlone {source : String} (member : source ∈ sources) :=
    compilePath_file limit (regular source member)
  have ofSources : (sources.map fun source => (Batch.alone limit disk source).1.2).map
      Report.source = sources := by
    rw [List.map_map]
    exact List.map_id sources
  rw [reports]
  refine ⟨fun none => inhabited (List.map_eq_nil_iff.1 none), ?_, ?_, ?_, ?_, ?_,
    List.forall_mem_map.2 accurate, ?_, refusal⟩
  · rw [ofSources]
    exact ascending
  · rw [ofSources]
    exact isSource
  · refine List.forall_mem_map.2 fun source member => ?_
    rw [output_alone, source_alone]
  · refine List.forall_mem_map.2 fun source member => ?_
    rw [output_alone, source_alone, isAlone member]
    exact ⟨rfl, outputs source member⟩
  · rw [List.flatMap_map, List.flatMap_map]
    refine List.flatMap_congr fun source member => ?_
    rw [source_alone, isAlone member]
  · intro place elsewhere
    refine rewrites.others place (List.forall_mem_map.2 fun source member => ?_)
    have apart := elsewhere _ (List.mem_map_of_mem member)
    rwa [output_alone] at apart

/-- Sources of a directory are compiled one after the other as they are compiled alone. -/
theorem separate_sources (limit : Nat) {sources : List String}
    (leads : disk.tree.locate path = .ok (.below names))
    (isDirectory : disk.tree.look? (.below names) = some .directory)
    (named : disk.tree.WellNamed) (ascending : sources.Pairwise (· < ·))
    (isSource : ∀ source ∈ sources, IsSource disk path source) :
    let ran := (sources.mapM (compileSource limit) : StateM Disk _).run disk
    Separate limit disk ran.2 sources ran.1 :=
  separate_mapM limit (fun source member => (isSource source member).placed leads isDirectory named)
    (ascending.imp_of_mem fun {source other} isOne isOther less =>
      (isSource source isOne).clear leads isDirectory named (isSource other isOther)
        (String.ne_of_lt less))

theorem compilesEach_mapM (limit : Nat) {sources : List String}
    (leads : disk.tree.locate path = .ok (.below names))
    (isDirectory : disk.tree.look? (.below names) = some .directory)
    (named : disk.tree.WellNamed) (inhabited : sources ≠ [])
    (ascending : sources.Pairwise (· < ·))
    (isSource : ∀ source, source ∈ sources ↔ IsSource disk path source) :
    let ran := (sources.mapM (compileSource limit) : StateM Disk _).run disk
    CompilesEach limit path disk ran.2 (ran.1.flatMap Prod.fst) (ran.1.map Prod.snd) := by
  have separate := separate_sources limit leads isDirectory named ascending
    fun source member => (isSource source).1 member
  refine separate.compilesEach inhabited ascending isSource fun source member => ?_
  obtain ⟨-, -, -, -, -, regular, -⟩ :=
    ((isSource source).1 member).exists_name leads isDirectory named
  exact regular

theorem names_of_locate (leads : disk.tree.locate path = .ok (.below names))
    (isDirectory : disk.tree.look? (.below names) = some .directory)
    (allowed : disk.refusal .list (.below names) = none) :
    disk.names path = .ok (disk.tree.namesBelow names) := by
  have listed : disk.tree.names path = .ok (disk.tree.namesBelow names) := by
    simp only [FileTree.names, FileTree.find, leads, isDirectory]
  rw [Disk.names, Disk.permit_eq .list leads, allowed]
  exact listed

theorem exists_below (isDirectory : disk.kind path = .ok .directory) :
    ∃ names, disk.tree.locate path = .ok (.below names) ∧
      disk.tree.look? (.below names) = some .directory := by
  obtain ⟨-, -, -, isKind⟩ := Disk.kind_eq_ok.1 isDirectory
  obtain ⟨⟨names⟩, entry, located, found, isEntry⟩ := FileTree.kind_eq_ok.1 isKind
  cases entry with
  | file content => cases isEntry
  | directory => exact ⟨names, located, found⟩

/-- What listing a directory gives. -/
theorem names_cases (isDirectory : disk.kind path = .ok .directory) :
    (∃ refused, disk.names path = .error refused) ∨
      ∃ names, disk.tree.locate path = .ok (.below names) ∧
        disk.tree.look? (.below names) = some .directory ∧
        disk.names path = .ok (disk.tree.namesBelow names) := by
  obtain ⟨names, located, found⟩ := exists_below isDirectory
  cases allowed : disk.refusal .list (.below names) with
  | some refused =>
    refine .inl ⟨refused, ?_⟩
    rw [Disk.names, Disk.permit_eq .list located, allowed]
    rfl
  | none => exact .inr ⟨names, located, found, names_of_locate located found allowed⟩

/-- Compiling a directory compiles every source in it as it is compiled alone, whatever becomes of
the others. -/
theorem compilePath_each (limit : Nat) (named : disk.tree.WellNamed)
    (isDirectory : disk.kind path = .ok .directory) :
    match (compilePath limit path : StateM Disk _).run disk with
    | ((messages, .error error), after) => messages = [] ∧ after = disk ∧
      ((∃ refused, disk.names path = .error refused ∧ error = .file refused) ∨
        error = .noSources path ∧ ∀ source, ¬IsSource disk path source)
    | ((messages, .ok reports), after) => CompilesEach limit path disk after messages reports := by
  rw [run_compilePath limit isDirectory]
  obtain ⟨refused, listed⟩ | ⟨names, leads, isHere, listed⟩ := names_cases isDirectory
  · rw [listed]
    exact ⟨rfl, rfl, .inl ⟨refused, rfl, rfl⟩⟩
  · have found (source : String) :
        source ∈ foundAmong disk path (disk.tree.namesBelow names) ↔ IsSource disk path source :=
      mem_foundAmong leads isHere named
    rw [listed]
    dsimp only
    by_cases none : (foundAmong disk path (disk.tree.namesBelow names)).isEmpty = true
    · rw [if_pos none]
      refine ⟨rfl, rfl, .inr ⟨rfl, fun source isSource => ?_⟩⟩
      have member := (found source).2 isSource
      rw [List.isEmpty_iff.1 none] at member
      cases member
    · rw [if_neg none]
      have sorted (source : String) :
          source ∈ sortedAmong disk path (disk.tree.namesBelow names) ↔ IsSource disk path source :=
        List.mem_mergeSort.trans (found source)
      refine compilesEach_mapM limit leads isHere named (fun empty => none ?_)
        (ascending_sortedAmong disk path (disk.tree.nodup_namesBelow names)) sorted
      obtain ⟨source, member⟩ := List.exists_mem_of_ne_nil _ (mt List.isEmpty_iff.2 none)
      have member := (sorted source).2 ((found source).1 member)
      rw [empty] at member
      cases member

/-- A directory with sources that come to different ends: one that compiles, one with an error in
it, one that is not text, one that must not be read, and one in whose output's place a directory
is. -/
def library : Disk where
  tree := [
      (["lib"], .directory),
      (["lib", "Main.jack"], .file "class Main {function void main() {return;}}".toUTF8),
      (["lib", "Main.vm"], .file "stale\n".toUTF8),
      (["lib", "Broken.jack"], .file "class Broken {function void f() {let = 1;}}".toUTF8),
      (["lib", "Broken.vm"], .file "stale\n".toUTF8),
      (["lib", "Noise.jack"], .file ⟨#[0x63, 0xFF]⟩),
      (["lib", "Noise.vm"], .file "old\n".toUTF8),
      (["lib", "Locked.jack"], .file "class Locked {}".toUTF8),
      (["lib", "Locked.vm"], .file "old\n".toUTF8),
      (["lib", "Taken.jack"], .file "class Taken {}".toUTF8),
      (["lib", "Taken.vm"], .directory),
      (["lib", "notes.txt"], .file "none\n".toUTF8),
      (["lib", "Deep.jack"], .directory),
      (["lib", "Deep.jack", "Deep.jack"], .file "class Deep {}".toUTF8)].foldl
    (fun tree entry => tree.putHere entry.1 entry.2) (.ofCurrent ["home"])
  refusal use place :=
    if use = .read ∧ place = .below ["home", "lib", "Locked.jack"] then
      some (.other "Permission denied (os error 13)")
    else none

theorem locate_library : library.tree.locate "lib" = .ok (.below ["home", "lib"]) := by
  decide +kernel

theorem isDirectory_library : library.kind "lib" = .ok .directory :=
  Disk.kind_of_locate locate_library rfl rfl

theorem run_library :
    (compilePath 128 "lib" : StateM Disk _).run library =
      let ran := (["lib/Broken.jack", "lib/Locked.jack", "lib/Main.jack", "lib/Noise.jack",
        "lib/Taken.jack"].mapM (compileSource 128) : StateM Disk _).run library
      ((ran.1.flatMap Prod.fst, .ok (ran.1.map Prod.snd)), ran.2) := by
  have listed := names_of_locate locate_library rfl rfl
  have sorted : sortedAmong library "lib" (library.tree.namesBelow ["home", "lib"]) =
      ["lib/Broken.jack", "lib/Locked.jack", "lib/Main.jack", "lib/Noise.jack", "lib/Taken.jack"] :=
    sortedAmong_eq (library.tree.nodup_namesBelow _) (by decide +kernel) (by decide)
  have some : (foundAmong library "lib" (library.tree.namesBelow ["home", "lib"])).isEmpty =
      false := by
    decide +kernel
  rw [run_compilePath 128 isDirectory_library, listed]
  dsimp only
  rw [some, sorted]
  rfl

theorem compilePath_each_library :
    library.tree.WellNamed ∧ library.kind "lib" = .ok .directory ∧
      ∃ messages reports after,
        (compilePath 128 "lib" : StateM Disk _).run library = ((messages, .ok reports), after) ∧
        CompilesEach 128 "lib" library after messages reports ∧
        reports.map (fun report => (report.source, report.failed)) =
          [("lib/Broken.jack", true), ("lib/Locked.jack", true), ("lib/Main.jack", false),
            ("lib/Noise.jack", true), ("lib/Taken.jack", true)] ∧
        ["lib/Broken.vm", "lib/Locked.vm", "lib/Main.vm", "lib/Noise.vm"].map
            (fun output => (after.read output).toOption) =
          ["function Broken.f 0\n", "old\n", "function Main.main 0\npush constant 0\nreturn\n",
            "old\n"].map fun text => some text.toUTF8 := by
  have named : library.tree.WellNamed := by decide
  have each := compilePath_each 128 named isDirectory_library
  have result : ((compilePath 128 "lib" : StateM Disk _).run library).1.2.toOption.map
      (List.map fun report => (report.source, report.failed)) =
        some [("lib/Broken.jack", true), ("lib/Locked.jack", true), ("lib/Main.jack", false),
          ("lib/Noise.jack", true), ("lib/Taken.jack", true)] := by
    rw [run_library]
    decide +kernel
  have outputs : ["lib/Broken.vm", "lib/Locked.vm", "lib/Main.vm", "lib/Noise.vm"].map
      (fun output =>
        (((compilePath 128 "lib" : StateM Disk _).run library).2.read output).toOption) =
      ["function Broken.f 0\n", "old\n", "function Main.main 0\npush constant 0\nreturn\n",
        "old\n"].map fun text => some text.toUTF8 := by
    rw [run_library]
    decide +kernel
  refine ⟨named, isDirectory_library, ?_⟩
  rcases ran : (compilePath 128 "lib" : StateM Disk _).run library with
    ⟨⟨messages, error | reports⟩, after⟩
  · rw [ran] at result
    cases result
  · rw [ran] at each result outputs
    exact ⟨messages, reports, after, rfl, each, Option.some.inj result, outputs⟩

/-- A path to the current directory with as many detours as there are steps. -/
def detour : Nat → String
  | 0 => "."
  | steps + 1 => detour steps ++ "/" ++ "."

theorem utf8ByteSize_detour (steps : Nat) : (detour steps).utf8ByteSize = 2 * steps + 1 := by
  induction steps with
  | zero => rfl
  | succ steps ih =>
    have step : (detour (steps + 1)).utf8ByteSize = (detour steps).utf8ByteSize + 1 + 1 := by
      rw [detour, String.utf8ByteSize_append, String.utf8ByteSize_append]
      rfl
    rw [step, ih]
    omega

theorem not_leads_detour (steps : Nat) : ¬Path.Leads (detour steps) := by
  have last : (detour steps).toList.getLast? = some '.' := by
    cases steps with
    | zero => rfl
    | succ steps =>
      have dot : ".".toList = ['.'] := rfl
      rw [detour, String.toList_append, dot, List.getLast?_concat]
  rintro (empty | ⟨before, slash⟩)
  · rw [empty] at last
    cases last
  · have bar : "/".toList = ['/'] := rfl
    rw [slash, String.toList_append, bar, List.getLast?_concat] at last
    cases last

theorem join_detour (steps : Nat) (name : String) :
    Path.join (detour steps) name = detour steps ++ "/" ++ name := by
  obtain ⟨front, leads, rfl | rfl, joined⟩ := Path.exists_leads_join (detour steps)
  · exact absurd leads (not_leads_detour steps)
  · exact joined name

theorem utf8ByteSize_join_detour (steps : Nat) (name : String) :
    (Path.join (detour steps) name).utf8ByteSize = 2 * steps + 2 + name.utf8ByteSize := by
  have slash : "/".utf8ByteSize = 1 := rfl
  rw [join_detour, String.utf8ByteSize_append, String.utf8ByteSize_append, utf8ByteSize_detour,
    slash]

theorem locate_detour (tree : FileTree) {steps : Nat} (short : 2 * steps + 1 ≤ FileTree.maxPath) :
    tree.locate (detour steps) = .ok (.below tree.current) := by
  have isDirectory : tree.look? (.below tree.current) = some .directory :=
    FileTree.look?_current (List.prefix_refl _)
  induction steps with
  | zero =>
    have parts : Path.components (detour 0) = ["."] := by decide
    have relative : ¬(detour 0).startsWith "/" = true := by decide +kernel
    refine FileTree.locate_eq_ok.2 ⟨by decide, by decide, by decide, ?_⟩
    rw [parts, if_neg relative]
    exact FileTree.walk_cons.2 ⟨isDirectory, _, rfl, rfl⟩
  | succ steps ih =>
    have size := utf8ByteSize_detour (steps + 1)
    have further : detour (steps + 1) = Path.join (detour steps) "." := (join_detour steps ".").symm
    rw [further] at size ⊢
    exact FileTree.locate_join (ih (by omega)) isDirectory (by decide) (by decide)
      (size.trans_le short) rfl

/-- Where the paths to all sources in a directory are too long, it seems to have none. -/
theorem compilePath_of_long (limit : Nat) {disk : Disk} {path : String} {names : List String}
    (isDirectory : disk.kind path = .ok .directory) (listed : disk.names path = .ok names)
    (long : ∀ name ∈ names, Path.extension? name = some sourceExtension →
      FileTree.maxPath < (Path.join path name).utf8ByteSize) :
    (compilePath limit path : StateM Disk _).run disk = (([], .error (.noSources path)), disk) := by
  have none : foundAmong disk path names = [] := by
    refine List.filter_eq_nil_iff.2 (List.forall_mem_map.2 fun name member isRegular => ?_)
    obtain ⟨listed, extension⟩ := List.mem_filter.1 member
    obtain ⟨place, located, -⟩ := Disk.kind_eq_ok.1 (of_decide_eq_true isRegular)
    have short := (FileTree.locate_eq_ok.1 located).2.2.1
    exact Nat.not_le.2 (long name listed (of_decide_eq_true extension)) short
  rw [run_compilePath limit isDirectory, listed]
  dsimp only
  rw [none]
  rfl

/-- The current directory with a source in it. -/
def lone : Disk where
  tree := (FileTree.ofCurrent ["home"]).putHere ["Main.jack"] (.file "class Main {}".toUTF8)
  refusal _ _ := none

/-- A file with the extension of sources that lies in a directory is left out, if the path to the
directory is long. -/
theorem compilePath_detour :
    lone.kind (detour 2045) = .ok .directory ∧
      (∃ content, lone.tree.locate (detour 2045) = .ok (.below ["home"]) ∧
        lone.tree.look? (.below ["home", "Main.jack"]) = some (.file content)) ∧
      Path.extension? "Main.jack" = some sourceExtension ∧
      (compilePath 128 (detour 2045) : StateM Disk _).run lone =
        (([], .error (.noSources (detour 2045))), lone) := by
  have located : lone.tree.locate (detour 2045) = .ok (.below ["home"]) :=
    locate_detour _ (by decide)
  have isDirectory : lone.kind (detour 2045) = .ok .directory :=
    Disk.kind_of_locate located rfl rfl
  have listed : lone.names (detour 2045) = .ok ["Main.jack"] := names_of_locate located rfl rfl
  refine ⟨isDirectory, ⟨_, located, rfl⟩, by decide,
    compilePath_of_long 128 isDirectory listed ?_⟩
  intro name member _
  obtain rfl := List.mem_singleton.1 member
  rw [utf8ByteSize_join_detour]
  decide

end Jack.Batch
