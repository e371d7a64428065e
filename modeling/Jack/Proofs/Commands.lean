import Jack.Formats
import Jack.Proofs.Limits
import Jack.Proofs.Units

namespace Jack

/-- A path that can be read is not too long. -/
theorem Disk.utf8ByteSize_le_of_read {disk : Disk} {path : String} {content : ByteArray}
    (holds : disk.read path = .ok content) : path.utf8ByteSize ≤ FileTree.maxPath := by
  cases located : disk.tree.locate path with
  | error error =>
    have refused : disk.permit .read path = .error error := by
      simp only [permit, located]
    rw [Disk.read, refused] at holds
    cases holds
  | ok place => exact (FileTree.locate_eq_ok.1 located).2.2.1

namespace Batch

variable {disk after : Disk} {path unit : String} {units : List String} {limit : Nat}

/-- Whether a unit is compiled: it is a text that compiles, its output can be made, and this output
holds all the instructions afterwards. -/
inductive Finished (limit : Nat) (disk after : Disk) (unit : String) : Prop
  | intro {text : String} {summary : Summary} {place : Place}
      (holds : disk.read unit = .ok text.toUTF8)
      (creatable : ∀ content, ∃ made, disk.write (outputPath unit) content = .ok made)
      (compiles : (Compilation.ofSource limit text .unlimited).result = .ok summary)
      (leads : disk.tree.locate (outputPath unit) = .ok place)
      (written : after.tree.look? place =
        some (.file (ClassCode.ofSource limit text).text.toUTF8))

/-- A text that compiles, and whose output can be made, is compiled. -/
theorem AccurateReport.finished {report : Report} {text : String} {summary : Summary}
    (accurate : AccurateReport limit disk after report)
    (beside : report.output = outputPath report.source)
    (holds : disk.read report.source = .ok text.toUTF8)
    (creatable : ∀ content, ∃ made, disk.write (outputPath report.source) content = .ok made)
    (compiles : (Compilation.ofSource limit text .unlimited).result = .ok summary) :
    report.failed = false ∧ Finished limit disk after report.source := by
  cases accurate with
  | unreadable refused => cases refused.symm.trans holds
  | notText holds' notText =>
    exact absurd (Except.ok.inj (holds'.symm.trans holds)) (notText text)
  | uncreatable _ refused =>
    obtain ⟨made, wrote⟩ := creatable .empty
    rw [← beside, refused] at wrote
    cases wrote
  | compiled holds' _ result leads written =>
    obtain rfl := String.toByteArray_inj.1 (Except.ok.inj (holds.symm.trans holds'))
    rw [beside] at leads
    refine ⟨?_, holds, creatable, compiles, leads, written⟩
    rw [Report.failed, result, compiles]
    rfl

/-- A report tells whether a unit is compiled. -/
theorem AccurateReport.failed_eq_false {report : Report}
    (accurate : AccurateReport limit disk after report)
    (beside : report.output = outputPath report.source) :
    report.failed = false ↔ Finished limit disk after report.source := by
  constructor
  · intro succeeds
    have noError (error : RunError) : report.result ≠ .error error := by
      intro failed
      rw [Report.failed, failed] at succeeds
      cases succeeds
    cases accurate with
    | unreadable _ result => exact absurd result (noError _)
    | notText _ _ result =>
      obtain ⟨error, result⟩ := result
      exact absurd result (noError _)
    | uncreatable _ _ result => exact absurd result (noError _)
    | @compiled text place holds creatable result leads written =>
      rw [beside] at creatable leads
      cases compiles : (Compilation.ofSource limit text .unlimited).result with
      | error failure =>
        rw [compiles] at result
        exact absurd result (noError _)
      | ok summary => exact ⟨holds, creatable, compiles, leads, written⟩
  · rintro ⟨holds, creatable, compiles, -, -⟩
    exact (accurate.finished beside holds creatable compiles).1

open Classical in
/-- How many of some units are compiled. -/
noncomputable def finishedCount (limit : Nat) (disk after : Disk) (units : List String) : Nat :=
  units.countP fun unit => Finished limit disk after unit

theorem Separate.finishedCount_eq {compiled : List (List Message × Report)}
    (separate : Separate limit disk after units compiled) :
    finishedCount limit disk after units =
      ((compiled.map Prod.snd).filter fun report => !report.failed).length := by
  rw [separate.reports, List.map_map, ← List.countP_eq_length_filter, List.countP_map]
  refine List.countP_congr fun unit member => ?_
  have tells := (separate.accurate unit member).failed_eq_false (output_alone limit disk unit)
  rw [source_alone] at tells
  simpa using tells.symm

/-- Every unit is compiled under a limit, whatever becomes of the others, and nothing but their
outputs is written. -/
structure CompilesAll (limit : Nat) (disk after : Disk) (units : List String) : Prop where
  accurate : ∀ unit ∈ units, ∃ result,
    AccurateReport limit disk after ⟨unit, outputPath unit, result⟩
  others : ∀ place, (∀ unit ∈ units, disk.tree.locate (outputPath unit) ≠ .ok place) →
    after.tree.look? place = disk.tree.look? place

theorem Separate.compilesAll {compiled : List (List Message × Report)}
    (separate : Separate limit disk after units compiled) : CompilesAll limit disk after units := by
  refine ⟨fun unit member => ⟨_, separate.accurate unit member⟩, fun place elsewhere => ?_⟩
  exact separate.rewrites.others place (List.forall_mem_map.2 elsewhere)

end Batch

namespace Run

open Batch

variable {disk after : Disk} {line : CommandLine} {path : String} {arguments : List String}
  {units : List String} {limit : Nat} {isUnits : List String → Prop}

theorem run_compile (limit : Nat)
    (found : (findSources path : StateM Disk _).run disk = (.ok units, disk)) :
    (compile limit path : StateM Disk _).run disk =
      let ran := (units.mapM (compileSource limit) : StateM Disk _).run disk
      let reports := ran.1.map Prod.snd
      let done := (reports.filter fun report => !report.failed).length
      (⟨if done = reports.length then 0 else failed,
        ran.1.flatMap Prod.fst ++ [⟨.info, s!"compiled {done} of {reports.length} units"⟩], ""⟩,
        ran.2) := by
  rw [compile, run_bind, compilePath, run_bind, found]
  rfl

/-- How compiling under a limit ends: with how many of the units are compiled, or at once if there
are no units. -/
theorem compile_cases (limit : Nat) (path : String) (named : disk.tree.WellNamed) :
    (∃ units messages after, Units disk path (IsSource disk path) units ∧ units ≠ [] ∧
      CompilesAll limit disk after units ∧
      let count := finishedCount limit disk after units
      (compile limit path : StateM Disk _).run disk =
        (⟨if count = units.length then 0 else failed,
          messages ++ [⟨.info, s!"compiled {count} of {units.length} units"⟩], ""⟩, after)) ∨
    (∃ error, (compile limit path : StateM Disk _).run disk = (ofError [] error, disk)) ∧
      ∀ units, Units disk path (IsSource disk path) units → units = [] := by
  obtain ⟨units, isUnits, inhabited, found⟩ | ⟨⟨error, found⟩, noUnits⟩ :=
    findSources_cases path named
  · have separate := isUnits.separate limit named
    have length : (((units.mapM (compileSource limit) : StateM Disk _).run disk).1.map
        Prod.snd).length = units.length := by
      rw [separate.reports, List.length_map, List.length_map]
    refine .inl ⟨units, ((units.mapM (compileSource limit) : StateM Disk _).run disk).1.flatMap
      Prod.fst, _, isUnits, inhabited, separate.compilesAll, ?_⟩
    rw [run_compile limit found, separate.finishedCount_eq, ← length]
  · refine .inr ⟨⟨error, ?_⟩, noUnits⟩
    rw [compile, run_bind, compilePath, run_bind, found]
    rfl

theorem getLast?_shownAt {level : Level} {run : Run} {last : Message} (messages : List Message)
    (isLast : run.messages = messages ++ [last]) (shown : last.shownAt level = true) :
    (run.shownAt level).messages.getLast? = some last := by
  rw [shownAt, isLast, List.filter_append, List.filter_singleton, shown]
  exact List.getLast?_concat

section Reading

variable [Readers]

/-- Compiling is what is done once the settings are loaded. -/
theorem run_ofArguments {messages : List Message} {settings : Settings}
    (reads : Readers.arguments arguments = .line line) (isCompile : line.command = .compile path)
    (settled : (settingsOf line : StateM Disk _).run disk = ((messages, .ok settings), disk)) :
    (ofArguments arguments : StateM Disk Run).run disk =
      let ran := (compile (line.maxDepth.getD settings.maxDepth) path : StateM Disk _).run disk
      (({ ran.1 with messages := messages ++ ran.1.messages } : Run).shownAt
        (if line.verbose then .debug else .info), ran.2) := by
  rw [ofArguments, reads]
  dsimp only
  rw [ofCommandLine, run_bind, settled]
  dsimp only
  rw [run_bind, isCompile]
  rfl

/-- What a command line that asks for compiling comes to, where these are the units of its path. -/
structure Outcome (line : CommandLine) (isUnits : List String → Prop) (disk after : Disk)
    (run : Run) : Prop where
  exits : run.exitCode = 0 ∨ run.exitCode = 1
  succeeds : run.exitCode = 0 ↔ ∃ limit units, HasLimit disk line limit ∧ isUnits units ∧
    units ≠ [] ∧ ∀ unit ∈ units, Finished limit disk after unit
  /-- Without settings nothing is written. -/
  unsettled : (∀ limit, ¬HasLimit disk line limit) → after = disk
  /-- Neither is it without units. -/
  idle : (∀ units, isUnits units → units = []) → after = disk
  compiles : ∀ limit units, HasLimit disk line limit → isUnits units → units ≠ [] →
    CompilesAll limit disk after units ∧
      run.messages.getLast? =
        some ⟨.info, s!"compiled {finishedCount limit disk after units} of {units.length} units"⟩

/-- A run that stops before anything is compiled. -/
theorem Outcome.of_nothing {run : Run} (isFailed : run.exitCode = failed)
    (nothing : ∀ limit, HasLimit disk line limit → ∀ units, isUnits units → units = []) :
    Outcome line isUnits disk disk run := by
  have notZero : run.exitCode ≠ 0 := isFailed ▸ Nat.one_ne_zero
  exact {
    exits := .inr isFailed
    succeeds := ⟨fun isZero => absurd isZero notZero,
      fun ⟨limit, units, isLimit, areUnits, inhabited, _⟩ =>
        absurd (nothing limit isLimit units areUnits) inhabited⟩
    unsettled := fun _ => rfl
    idle := fun _ => rfl
    compiles := fun limit units isLimit areUnits inhabited =>
      absurd (nothing limit isLimit units areUnits) inhabited }

/-- A run in which units are compiled. -/
theorem Outcome.of_units {run : Run} (isLimit : ∀ other, HasLimit disk line other ↔ other = limit)
    (areUnits : isUnits units) (unique : ∀ others, isUnits others → others = units)
    (inhabited : units ≠ []) (all : CompilesAll limit disk after units)
    (exits : run.exitCode =
      if finishedCount limit disk after units = units.length then 0 else failed)
    (last : run.messages.getLast? = some
      ⟨.info, s!"compiled {finishedCount limit disk after units} of {units.length} units"⟩) :
    Outcome line isUnits disk after run := by
  have isAll : finishedCount limit disk after units = units.length ↔
      ∀ unit ∈ units, Finished limit disk after unit := by
    simp [finishedCount, List.countP_eq_length]
  refine {
    exits := ?_
    succeeds := ?_
    unsettled := fun noLimit => absurd ((isLimit limit).2 rfl) (noLimit limit)
    idle := fun noUnits => absurd (noUnits units areUnits) inhabited
    compiles := ?_ }
  · rw [exits]
    split
    · exact .inl rfl
    · exact .inr rfl
  · have isZero : run.exitCode = 0 ↔ finishedCount limit disk after units = units.length := by
      rw [exits]
      split <;> simp_all [failed]
    rw [isZero, isAll]
    constructor
    · exact fun finished => ⟨limit, units, (isLimit limit).2 rfl, areUnits, inhabited, finished⟩
    · rintro ⟨other, others, isLimit', areUnits', -, finished⟩
      obtain rfl := (isLimit other).1 isLimit'
      obtain rfl := unique others areUnits'
      exact finished
  · intro other others isLimit' areUnits' _
    obtain rfl := (isLimit other).1 isLimit'
    obtain rfl := unique others areUnits'
    exact ⟨all, last⟩

/-- The units are those that are found. -/
theorem outcome_sources (reads : Readers.arguments arguments = .line line)
    (isCompile : line.command = .compile path) (named : disk.tree.WellNamed) :
    let ran := (ofArguments arguments : StateM Disk Run).run disk
    Outcome line (Units disk path (IsSource disk path)) disk ran.2 ran.1 := by
  obtain ⟨messages, settings, settled, isLimit⟩ | ⟨⟨messages, error, settled⟩, noLimit⟩ :=
    settingsOf_cases disk line
  · rw [run_ofArguments reads isCompile settled]
    obtain ⟨units, compiled, after, isUnits, inhabited, all, ran⟩ | ⟨⟨error, ran⟩, noUnits⟩ :=
      compile_cases (line.maxDepth.getD settings.maxDepth) path named
    · rw [ran]
      refine .of_units isLimit isUnits (fun others isOthers => isOthers.unique isUnits) inhabited
        all rfl (getLast?_shownAt (messages ++ compiled) ?_ ?_)
      · exact (List.append_assoc messages compiled _).symm
      · cases line.verbose <;> rfl
    · rw [ran]
      exact .of_nothing rfl fun _ _ => noUnits
  · rw [ofArguments, reads]
    dsimp only
    rw [ofCommandLine, run_bind, settled]
    exact .of_nothing rfl fun limit isLimit => absurd isLimit (noLimit limit)

/-- A command line that asks for compiling succeeds exactly when the settings load and every unit is
compiled. In a directory the units are the sources that the system lets be looked at, and these are
all sources that lie in it if it keeps none of them back. -/
theorem ofArguments_outcome (reads : Readers.arguments arguments = .line line)
    (isCompile : line.command = .compile path) (named : disk.tree.WellNamed) :
    let ran := (ofArguments arguments : StateM Disk Run).run disk
    Outcome line (Units disk path (IsSource disk path)) disk ran.2 ran.1 ∧
      ((∀ unit, LiesIn disk path unit → disk.kind unit = .ok .regular) →
        Outcome line (Units disk path (LiesIn disk path)) disk ran.2 ran.1) := by
  have found := outcome_sources reads isCompile named
  refine ⟨found, fun shown => ?_⟩
  rw [← units_isSource_eq named shown]
  exact found

end Reading

/-- A directory with a source that needs no nesting and one that needs two levels, and settings that
allow one. -/
def workshop : Disk where
  tree := [
      (["jack.yaml"], .file "max_depth: 1\n".toUTF8),
      (["src"], .directory),
      (["src", "Main.jack"], .file "class Main {function void main() {return;}}".toUTF8),
      (["src", "Deep.jack"], .file "class Deep {function int two() {return (2);}}".toUTF8)].foldl
    (fun tree entry => tree.putHere entry.1 entry.2) (.ofCurrent ["home"])
  refusal _ _ := none

theorem locate_workshop : workshop.tree.locate "src" = .ok (.below ["home", "src"]) := by
  decide +kernel

theorem wellNamed_workshop : workshop.tree.WellNamed := by
  decide

theorem units_workshop :
    Units workshop "src" (IsSource workshop "src") ["src/Deep.jack", "src/Main.jack"] := by
  have isDirectory : workshop.kind "src" = .ok .directory :=
    Disk.kind_of_locate locate_workshop rfl rfl
  have sorted : sortedAmong workshop "src" (workshop.tree.namesBelow ["home", "src"]) =
      ["src/Deep.jack", "src/Main.jack"] :=
    sortedAmong_eq (workshop.tree.nodup_namesBelow _) (by decide +kernel) (by decide)
  exact sorted ▸ units_sortedAmong wellNamed_workshop isDirectory
    (names_of_locate locate_workshop rfl rfl)

/-- One of the sources is too deep for the settings, and none for the flag that goes before them. -/
theorem ofArguments_outcome_workshop :
    workshop.tree.WellNamed ∧
      (∀ unit, LiesIn workshop "src" unit → workshop.kind unit = .ok .regular) ∧
      (Readers.arguments ["--config", "jack.yaml", "compile", "src"] =
          .line ⟨false, some "jack.yaml", none, .compile "src"⟩ ∧
        let ran := (ofArguments ["--config", "jack.yaml", "compile", "src"] :
          StateM Disk Run).run workshop
        Outcome ⟨false, some "jack.yaml", none, .compile "src"⟩
            (Units workshop "src" (LiesIn workshop "src")) workshop ran.2 ran.1 ∧
          ran.1.exitCode = 1 ∧
          ran.1.messages.getLast? = some ⟨.info, "compiled 1 of 2 units"⟩) ∧
      (Readers.arguments ["compile", "src", "--config=jack.yaml", "--max-depth", "2"] =
          .line ⟨false, some "jack.yaml", some 2, .compile "src"⟩ ∧
        let ran := (ofArguments ["compile", "src", "--config=jack.yaml", "--max-depth", "2"] :
          StateM Disk Run).run workshop
        Outcome ⟨false, some "jack.yaml", some 2, .compile "src"⟩
            (Units workshop "src" (LiesIn workshop "src")) workshop ran.2 ran.1 ∧
          ran.1.exitCode = 0 ∧
          ran.1.messages.getLast? = some ⟨.info, "compiled 2 of 2 units"⟩) := by
  have shown (unit : String) (liesIn : LiesIn workshop "src" unit) :
      workshop.kind unit = .ok .regular :=
    liesIn.regular wellNamed_workshop (by decide) fun _ => rfl
  have found := units_workshop.run_findSources (List.cons_ne_nil _ _) wellNamed_workshop
  have ofFile : Readers.arguments ["--config", "jack.yaml", "compile", "src"] =
      .line ⟨false, some "jack.yaml", none, .compile "src"⟩ := by
    decide +kernel
  have ofFlag : Readers.arguments ["compile", "src", "--config=jack.yaml", "--max-depth", "2"] =
      .line ⟨false, some "jack.yaml", some 2, .compile "src"⟩ := by
    decide +kernel
  have loads : Loads workshop (some "jack.yaml") (some 1) :=
    .file (show workshop.read "jack.yaml" = .ok "max_depth: 1\n".toUTF8 by decide +kernel)
      (by decide +kernel)
  have settled (flag : Option Nat) : (settingsOf ⟨false, some "jack.yaml", flag, .compile "src"⟩ :
      StateM Disk _).run workshop =
        (([⟨.debug, "loaded configuration jack.yaml: CompileConf \x7b max_depth: 1 \x7d"⟩],
          .ok ⟨1⟩), workshop) := by
    rw [run_settingsOf workshop rfl, run_loadSettings loads]
    rfl
  refine ⟨wellNamed_workshop, shown,
    ⟨ofFile, (ofArguments_outcome ofFile rfl wellNamed_workshop).2 shown, ?_⟩,
    ofFlag, (ofArguments_outcome ofFlag rfl wellNamed_workshop).2 shown, ?_⟩
  · rw [run_ofArguments ofFile rfl (settled none), run_compile _ found]
    decide +kernel
  · rw [run_ofArguments ofFlag rfl (settled (some 2)), run_compile _ found]
    decide +kernel

/-- The current directory with two sources in it. -/
def neighbours : Disk where
  tree := lone.tree.putHere ["A.jack"] (.file "class A {}".toUTF8)
  refusal _ _ := none

section Neighbours

theorem wellNamed_neighbours : neighbours.tree.WellNamed := by
  decide

theorem detour_ne_empty (steps : Nat) : detour steps ≠ "" := by
  intro empty
  have size := utf8ByteSize_detour steps
  rw [empty, String.utf8ByteSize_empty] at size
  omega

/-- It looks like no option. -/
theorem startsWith_detour (steps : Nat) : (detour steps).startsWith "-" = false := by
  have first : (detour steps).toList.head? = some '.' := by
    induction steps with
    | zero => rfl
    | succ steps ih =>
      rw [detour, String.toList_append, String.toList_append, List.append_assoc, List.head?_append,
        ih]
      rfl
  rw [Bool.eq_false_iff, Ne, String.startsWith_string_iff]
  rintro ⟨rest, spelt⟩
  have dash : "-".toList = ['-'] := rfl
  rw [← spelt, dash] at first
  cases first

theorem arguments_detour (steps : Nat) : Readers.arguments ["compile", detour steps] =
    .line ⟨false, none, none, .compile (detour steps)⟩ :=
  CommandLine.ofArguments_compile (detour_ne_empty steps) (startsWith_detour steps)

variable {steps : Nat} (fits : 2 * steps + 8 ≤ FileTree.maxPath)

include fits

theorem locate_neighbours : neighbours.tree.locate (detour steps) = .ok (.below ["home"]) :=
  locate_detour neighbours.tree (by omega)

theorem isDirectory_neighbours : neighbours.kind (detour steps) = .ok .directory :=
  Disk.kind_of_locate (locate_neighbours fits) rfl rfl

/-- Where the shorter name of a source fits, its text is compiled. -/
theorem finished_neighbours {after : Disk}
    (all : CompilesAll 128 neighbours after [Path.join (detour steps) "A.jack"]) :
    Finished 128 neighbours after (Path.join (detour steps) "A.jack") := by
  have isEntry : Path.IsEntry "A.jack" := by decide
  have extension : Path.extension? "A.jack" = some sourceExtension := by decide
  have here : neighbours.tree.locate (detour steps) = .ok (.below ["home"]) :=
    locate_neighbours fits
  have short : (Path.join (detour steps) "A.jack").utf8ByteSize ≤ FileTree.maxPath :=
    (utf8ByteSize_join_detour steps "A.jack").trans_le fits
  have located := locate_source here rfl isEntry short
  obtain ⟨next, step, leads⟩ := locate_output here rfl isEntry extension short
  have isOutput : FileTree.child (.below ["home"]) (Path.renamed "A.jack" outputExtension) =
      .ok (.below ["home", "A.vm"]) := by
    decide
  obtain rfl := Except.ok.inj (step.symm.trans isOutput)
  have holds : neighbours.read (Path.join (detour steps) "A.jack") = .ok "class A {}".toUTF8 := by
    rw [Disk.read, Disk.permit_eq .read located]
    exact FileTree.read_eq_ok.2 ⟨_, located, rfl⟩
  have compiles : (Compilation.ofSource 128 "class A {}" .unlimited).result =
      .ok ⟨"A", 0, 0⟩ := by
    decide +kernel
  obtain ⟨result, accurate⟩ := all.accurate _ List.mem_cons_self
  refine (accurate.finished rfl holds (fun content => ?_) compiles).2
  have notDirectory : neighbours.tree.look? (.below ["home", "A.vm"]) ≠ some .directory := by
    intro isDirectory
    cases isDirectory
  rw [Disk.write, Disk.permit_eq .write leads, FileTree.write_of_locate leads notDirectory]
  exact ⟨_, rfl⟩

theorem liesIn_neighbours {name : String} {content : ByteArray}
    (isFile : neighbours.tree.look? (.below ["home", name]) = some (.file content))
    (extension : Path.extension? name = some sourceExtension) :
    LiesIn neighbours (detour steps) (Path.join (detour steps) name) := by
  have here : neighbours.tree.locate (detour steps) = .ok (.below ["home"]) :=
    locate_neighbours fits
  exact .intro here rfl isFile extension

variable (long : FileTree.maxPath < 2 * steps + 11)

include long

/-- Where the longer one does not fit, one unit is found. -/
theorem units_neighbours : Units neighbours (detour steps) (IsSource neighbours (detour steps))
    [Path.join (detour steps) "A.jack"] := by
  have here : neighbours.tree.locate (detour steps) = .ok (.below ["home"]) :=
    locate_neighbours fits
  refine .directory (isDirectory_neighbours fits) (names_of_locate here rfl rfl)
    (List.pairwise_singleton _ _) fun unit => ?_
  rw [List.mem_singleton]
  constructor
  · rintro rfl
    exact .intro here rfl (by decide)
      ((utf8ByteSize_join_detour steps "A.jack").trans_le fits) rfl
  · intro isSource
    obtain ⟨name, rfl, -, -, short, -, member⟩ := isSource.exists_name here rfl wellNamed_neighbours
    have names : neighbours.tree.namesBelow ["home"] = ["A.jack", "Main.jack"] := by decide
    rw [names, List.mem_pair] at member
    obtain rfl | rfl := member
    · rfl
    · have size := utf8ByteSize_join_detour steps "Main.jack"
      exact absurd short (Nat.not_le.2 (size ▸ long))

/-- The run succeeds with the one unit that it finds. -/
theorem succeeds_neighbours :
    let ran := (ofArguments ["compile", detour steps] : StateM Disk Run).run neighbours
    ran.1.exitCode = 0 ∧ ran.1.messages.getLast? = some ⟨.info, "compiled 1 of 1 units"⟩ := by
  intro ran
  have outcome := outcome_sources (arguments_detour steps) rfl wellNamed_neighbours
  have isLimit : HasLimit neighbours ⟨false, none, none, .compile (detour steps)⟩ 128 :=
    ⟨none, .unnamed, rfl⟩
  have units := units_neighbours fits long
  obtain ⟨all, last⟩ := outcome.compiles 128 _ isLimit units (List.cons_ne_nil _ _)
  have finished := finished_neighbours fits all
  have count : finishedCount 128 neighbours ran.2 [Path.join (detour steps) "A.jack"] = 1 := by
    simp [finishedCount, ran, finished]
  rw [count, List.length_singleton] at last
  constructor
  · exact outcome.succeeds.2 ⟨128, _, isLimit, units, List.cons_ne_nil _ _,
      List.forall_mem_singleton.2 finished⟩
  · refine last.trans (congrArg (fun text => some (Message.mk .info text)) ?_)
    decide

/-- No run compiles the source whose path is too long. -/
theorem not_outcome_neighbours {after : Disk} {run : Run} (succeeds : run.exitCode = 0) :
    ¬Outcome line (Units neighbours (detour steps) (LiesIn neighbours (detour steps)))
      neighbours after run := by
  intro outcome
  obtain ⟨limit, units, -, isUnits, -, all⟩ := outcome.succeeds.1 succeeds
  cases isUnits with
  | file regular => cases (isDirectory_neighbours fits).symm.trans regular
  | directory _ _ _ isUnit =>
    have isMain : LiesIn neighbours (detour steps) (Path.join (detour steps) "Main.jack") :=
      liesIn_neighbours fits rfl (by decide)
    obtain ⟨holds, -⟩ := all _ ((isUnit _).2 isMain)
    have short := Disk.utf8ByteSize_le_of_read holds
    have size := utf8ByteSize_join_detour steps "Main.jack"
    exact absurd short (Nat.not_le.2 (size ▸ long))

end Neighbours

/-- A source is left out where the path to it is too long, and the run succeeds without it. -/
theorem ofArguments_detour :
    neighbours.tree.WellNamed ∧
      Readers.arguments ["compile", detour 2043] =
        .line ⟨false, none, none, .compile (detour 2043)⟩ ∧
      LiesIn neighbours (detour 2043) (Path.join (detour 2043) "A.jack") ∧
      LiesIn neighbours (detour 2043) (Path.join (detour 2043) "Main.jack") ∧
      let ran := (ofArguments ["compile", detour 2043] : StateM Disk Run).run neighbours
      ran.1.exitCode = 0 ∧
        ran.1.messages.getLast? = some ⟨.info, "compiled 1 of 1 units"⟩ ∧
        ¬Outcome ⟨false, none, none, .compile (detour 2043)⟩
          (Units neighbours (detour 2043) (LiesIn neighbours (detour 2043))) neighbours
          ran.2 ran.1 := by
  have fits : 2 * 2043 + 8 ≤ FileTree.maxPath := by decide
  have long : FileTree.maxPath < 2 * 2043 + 11 := by decide
  obtain ⟨succeeds, last⟩ := succeeds_neighbours fits long
  exact ⟨wellNamed_neighbours, arguments_detour _, liesIn_neighbours fits rfl (by decide),
    liesIn_neighbours fits rfl (by decide), succeeds, last,
    not_outcome_neighbours fits long succeeds⟩

end Run

end Jack
