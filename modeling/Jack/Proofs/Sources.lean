import Jack.Batch
import Jack.Proofs.Places

namespace Jack

section Access

variable (tree : FileTree) (path : String)

theorem run_bind {σ α β : Type} (action : StateM σ α) (next : α → StateM σ β) (state : σ) :
    (action >>= next).run state = (next (action.run state).1).run (action.run state).2 :=
  rfl

theorem run_kind : (FileAccess.kind path : StateM FileTree _).run tree = (tree.kind path, tree) :=
  rfl

theorem run_names :
    (FileAccess.names path : StateM FileTree _).run tree = (tree.names path, tree) :=
  rfl

theorem run_read : (FileAccess.read path : StateM FileTree _).run tree = (tree.read path, tree) :=
  rfl

theorem run_write (content : ByteArray) :
    (FileAccess.write path content : StateM FileTree _).run tree =
      match tree.write path content with
      | .ok after => (.ok (), after)
      | .error error => (.error error, tree) := by
  change ((match tree.write path content with
    | .ok after => do set after; return .ok ()
    | .error error => return .error error : StateM FileTree (Except FileError Unit)).run tree) = _
  cases tree.write path content <;> rfl

end Access

namespace Batch

variable {tree : FileTree} {path source : String}

/-- Tests that only look at a state select from a list as plain tests do. -/
theorem run_filterM {σ : Type} {test : String → StateM σ Bool} {state : σ}
    (looks : ∀ path, ((test path).run state).2 = state) (paths : List String) :
    (paths.filterM test).run state = (paths.filter fun path => ((test path).run state).1, state) := by
  have onto (done : List String) : (paths.filterAuxM test done).run state =
      ((paths.filter fun path => ((test path).run state).1).reverse ++ done, state) := by
    induction paths generalizing done with
    | nil => rfl
    | cons path paths ih =>
      rw [List.filterAuxM, run_bind, looks, ih, List.filter_cons]
      cases ((test path).run state).1 with
      | false => rfl
      | true =>
        rw [if_pos rfl, List.reverse_cons, List.append_assoc]
        rfl
  rw [List.filterM, run_bind, onto []]
  change ((_ ++ []).reverse, state) = _
  rw [List.append_nil, List.reverse_reverse]

theorem looks_isRegular (tree : FileTree) (path : String) :
    ((isRegular path : StateM FileTree Bool).run tree).2 = tree := by
  simp only [isRegular, run_bind, run_kind]
  cases tree.kind path <;> rfl

theorem kind_of_isRegular (isOne : ((isRegular path : StateM FileTree Bool).run tree).1 = true) :
    tree.kind path = .ok .regular := by
  simp only [isRegular, run_bind, run_kind] at isOne
  cases found : tree.kind path with
  | error error =>
    rw [found] at isOne
    cases isOne
  | ok kind =>
    rw [found] at isOne
    have regular : kind = .regular := of_decide_eq_true isOne
    rw [regular]

theorem proper_of_kind (regular : tree.kind path = .ok .regular) :
    Path.Proper (Path.lastPart path) := by
  obtain ⟨content, holds⟩ := FileTree.read_of_kind regular
  obtain ⟨place, located, isFile⟩ := FileTree.read_eq_ok.1 holds
  exact (FileTree.below_of_locate located isFile).1

/-- A file in a directory has the extension of its name. -/
theorem extension?_join {directory name : String}
    (regular : tree.kind (Path.join directory name) = .ok .regular) :
    Path.extension? (Path.join directory name) = Path.extension? name := by
  have proper := proper_of_kind regular
  rw [← Path.extension?_lastPart proper, Path.lastPart_join]
  exact Path.extension?_lastPart (Path.lastPart_join directory name ▸ proper)

theorem source_of_mem {names : List String}
    (member : source ∈ ((names.filter fun name =>
      Path.extension? name = some sourceExtension).map (Path.join path)).filter fun joined =>
        ((isRegular joined : StateM FileTree Bool).run tree).1) :
    tree.kind source = .ok .regular ∧ Path.extension? source = some sourceExtension := by
  obtain ⟨isJoined, isRegular⟩ := List.mem_filter.1 member
  obtain ⟨name, isName, rfl⟩ := List.mem_map.1 isJoined
  have extension := of_decide_eq_true (List.mem_filter.1 isName).2
  have regular := kind_of_isRegular isRegular
  exact ⟨regular, (extension?_join regular).trans extension⟩

/-- The sources that a path names: itself if it leads to a file, and else files of the directory
that it leads to. -/
inductive Named (tree : FileTree) (path : String) : List String → Prop
  | file (kind : tree.kind path = .ok .regular) : Named tree path [path]
  | directory {sources : List String} (kind : tree.kind path = .ok .directory)
      (each : ∀ source ∈ sources, tree.kind source = .ok .regular ∧
        Path.extension? source = some sourceExtension) : Named tree path sources

theorem looks_findSources (tree : FileTree) (path : String) :
    ((findSources path : StateM FileTree _).run tree).2 = tree := by
  simp only [findSources, run_bind, run_kind]
  rcases tree.kind path with _ | _ | _ | _
  · rfl
  · rfl
  · simp only [run_bind, run_names]
    cases tree.names path with
    | error error => rfl
    | ok names =>
      simp only [run_bind, run_filterM (looks_isRegular tree)]
      split <;> rfl
  · rfl

theorem named_findSources {sources : List String}
    (found : ((findSources path : StateM FileTree _).run tree).1 = .ok sources) :
    Named tree path sources := by
  simp only [findSources, run_bind, run_kind] at found
  rcases kind : tree.kind path with _ | _ | _ | _
  · rw [kind] at found
    cases found
  · rw [kind] at found
    cases found
    exact .file kind
  · rw [kind] at found
    simp only [run_bind, run_names] at found
    cases listed : tree.names path with
    | error error =>
      rw [listed] at found
      cases found
    | ok names =>
      simp only [listed, run_bind, run_filterM (looks_isRegular tree)] at found
      split at found
      · cases found
      · cases found
        exact .directory kind fun source member => source_of_mem (List.mem_mergeSort.1 member)
  · exact absurd kind FileTree.kind_ne_special

theorem rewrites_compileFile (limit : Nat) (source output : String) (tree : FileTree) :
    tree.Rewrites ((compileFile limit source output : StateM FileTree _).run tree).2 [output] := by
  simp only [compileFile, run_bind, run_read]
  cases tree.read source with
  | error error => exact .refl tree _
  | ok bytes =>
    dsimp only
    cases Text.Utf8.decode bytes with
    | error error => exact .refl tree _
    | ok text =>
      simp only [run_bind, run_write]
      cases wrote : tree.write output (Compilation.ofSource limit text .unlimited).sink.held with
      | error error => exact .refl tree _
      | ok after => exact .of_write wrote

theorem run_compileSource (limit : Nat) (source : String) (tree : FileTree) :
    tree.Rewrites ((compileSource limit source : StateM FileTree _).run tree).2
        [outputPath source] ∧
      ((compileSource limit source : StateM FileTree _).run tree).1.2.source = source ∧
      ((compileSource limit source : StateM FileTree _).run tree).1.2.output =
        outputPath source := by
  have rewrites := rewrites_compileFile limit source (outputPath source) tree
  exact ⟨rewrites, rfl, rfl⟩

/-- However many sources are compiled, only their outputs are written. -/
theorem run_mapM_compileSource (limit : Nat) (sources : List String) (tree : FileTree) :
    tree.Rewrites ((sources.mapM (compileSource limit) : StateM FileTree _).run tree).2
        (sources.map outputPath) ∧
      (((sources.mapM (compileSource limit) : StateM FileTree _).run tree).1.map Prod.snd).map
          (fun report => (report.source, report.output)) =
        sources.map fun source => (source, outputPath source) := by
  induction sources generalizing tree with
  | nil => exact ⟨.refl tree _, rfl⟩
  | cons source sources ih =>
    obtain ⟨first, isSource, isOutput⟩ := run_compileSource limit source tree
    obtain ⟨others, rest⟩ := ih ((compileSource limit source : StateM FileTree _).run tree).2
    rw [List.mapM_cons, run_bind, run_bind]
    refine ⟨first.append others, ?_⟩
    change (_, _) :: _ = _
    rw [isSource, isOutput, rest]
    rfl

/-- An output that leads to a file changes the last name of its source to that of the file. -/
theorem renamed_of_reached {other : String} {content : ByteArray}
    (holds : tree.read source = .ok content) (regular : tree.kind other = .ok .regular)
    (reached : tree.locate (outputPath other) = tree.locate source) :
    Path.renamed (Path.lastPart other) outputExtension = Path.lastPart source := by
  obtain ⟨place, located, isFile⟩ := FileTree.read_eq_ok.1 holds
  obtain ⟨-, names, isBelow⟩ := FileTree.below_of_locate located isFile
  obtain ⟨-, others, isOutput⟩ := FileTree.below_of_locate (reached.trans located) isFile
  have last := congrArg List.getLast? (Place.below.inj (isOutput.symm.trans isBelow))
  rw [List.getLast?_concat, List.getLast?_concat] at last
  have noSlash : '/' ∉ outputExtension.toList := by decide
  rw [← Path.lastPart_withExtension (proper_of_kind regular) noSlash]
  exact Option.some.inj last

/-- Only files with the extension of outputs can be written as outputs. -/
theorem extension?_of_reached {other : String} (isSource : tree.kind source = .ok .regular)
    (regular : tree.kind other = .ok .regular)
    (reached : tree.locate (outputPath other) = tree.locate source) :
    Path.extension? source = some outputExtension := by
  obtain ⟨content, holds⟩ := FileTree.read_of_kind isSource
  have renamed := renamed_of_reached holds regular reached
  have noDot : '.' ∉ outputExtension.toList := by decide
  have proper := proper_of_kind isSource
  rw [← Path.extension?_lastPart proper, ← renamed]
  exact Path.extension?_renamed (proper_of_kind regular) (renamed ▸ proper) noDot

/-- What compiling the sources that a path names does to files. -/
structure Spares (path : String) (tree after : FileTree) (reports : List Report) : Prop where
  /-- Each output stands beside its source. -/
  beside : ∀ report ∈ reports, report.output = outputPath report.source
  /-- Nothing is written but outputs. -/
  others : ∀ place, (∀ report ∈ reports, tree.locate report.output ≠ .ok place) →
    after.look? place = tree.look? place
  /-- A source that is not its own output is not the output of another source either. -/
  apart : ∀ report ∈ reports, report.output ≠ report.source →
    ∀ other ∈ reports, tree.locate other.output ≠ tree.locate report.source
  /-- Such a source keeps its bytes, however compiling it ends. -/
  kept : ∀ report ∈ reports, report.output ≠ report.source →
    ∃ content, tree.read report.source = .ok content ∧ after.read report.source = .ok content
  /-- Only a file that is named itself and has the extension of outputs is its own output. -/
  overwritten : ∀ report ∈ reports, report.output = report.source → report.source = path ∧
    tree.kind path = .ok .regular ∧ Path.extension? path = some outputExtension

theorem Named.regular {sources : List String} (named : Named tree path sources) :
    ∀ source ∈ sources, tree.kind source = .ok .regular := by
  cases named with
  | file kind => exact List.forall_mem_singleton.2 kind
  | directory kind each => exact fun source member => (each source member).1

/-- Only a file that is named itself can be written as an output. -/
theorem Named.eq_of_reached {sources : List String} {other : String}
    (named : Named tree path sources) (isSource : source ∈ sources) (isOther : other ∈ sources)
    (reached : tree.locate (outputPath other) = tree.locate source) :
    source = path ∧ tree.kind path = .ok .regular ∧
      Path.extension? path = some outputExtension ∧ outputPath source = source := by
  have regular := named.regular source isSource
  have extension := extension?_of_reached regular (named.regular other isOther) reached
  cases named with
  | file kind =>
    obtain rfl := List.mem_singleton.1 isSource
    obtain rfl := List.mem_singleton.1 isOther
    obtain ⟨content, holds⟩ := FileTree.read_of_kind regular
    have renamed := renamed_of_reached holds regular reached
    exact ⟨rfl, kind, extension, Path.withExtension_eq_self (proper_of_kind regular) renamed⟩
  | directory kind each =>
    -- All sources in a directory have another extension than outputs.
    have different : sourceExtension ≠ outputExtension := by decide
    exact absurd (Option.some.inj ((each source isSource).2.symm.trans extension)) different

section Reports

variable {sources : List String} {reports : List Report}
  (same : reports.map (fun report => (report.source, report.output)) =
    sources.map fun source => (source, outputPath source))

include same

theorem of_mem_reports {report : Report} (member : report ∈ reports) :
    report.source ∈ sources ∧ report.output = outputPath report.source := by
  have isPair : (report.source, report.output) ∈ sources.map fun source =>
      (source, outputPath source) := same ▸ List.mem_map_of_mem member
  obtain ⟨source, isSource, pair⟩ := List.mem_map.1 isPair
  obtain ⟨rfl, isOutput⟩ := Prod.mk.inj pair
  exact ⟨isSource, isOutput.symm⟩

theorem outputs_eq : sources.map outputPath = reports.map Report.output := by
  have seconds := congrArg (List.map Prod.snd) same
  rw [List.map_map, List.map_map] at seconds
  exact seconds.symm

theorem Named.spares {after : FileTree} (named : Named tree path sources)
    (rewrites : tree.Rewrites after (sources.map outputPath)) :
    Spares path tree after reports := by
  rw [outputs_eq same] at rewrites
  have apart : ∀ report ∈ reports, report.output ≠ report.source →
      ∀ other ∈ reports, tree.locate other.output ≠ tree.locate report.source := by
    intro report member differs other isOther reached
    obtain ⟨isSource, isOutput⟩ := of_mem_reports same member
    obtain ⟨isSource', isOutput'⟩ := of_mem_reports same isOther
    rw [isOutput'] at reached
    obtain ⟨-, -, -, itself⟩ := named.eq_of_reached isSource isSource' reached
    exact differs (isOutput.trans itself)
  refine ⟨fun report member => (of_mem_reports same member).2, ?_, apart, ?_, ?_⟩
  · intro place elsewhere
    exact rewrites.others place (List.forall_mem_map.2 elsewhere)
  · intro report member differs
    obtain ⟨content, holds⟩ :=
      FileTree.read_of_kind (named.regular _ (of_mem_reports same member).1)
    have unread : ∀ output ∈ reports.map Report.output,
        tree.locate output ≠ tree.locate report.source :=
      List.forall_mem_map.2 (apart report member differs)
    exact ⟨content, holds, rewrites.read unread holds⟩
  · intro report member itself
    obtain ⟨isSource, isOutput⟩ := of_mem_reports same member
    have reached : tree.locate (outputPath report.source) = tree.locate report.source := by
      rw [← isOutput, itself]
    obtain ⟨isPath, kind, extension, -⟩ := named.eq_of_reached isSource isSource reached
    exact ⟨isPath, kind, extension⟩

end Reports

/-- Whatever the files are and whatever the path names, compiling spares the sources. -/
theorem compilePath_spares (limit : Nat) (path : String) (tree : FileTree) :
    match (compilePath limit path : StateM FileTree _).run tree with
    | ((_, .error _), after) => after = tree
    | ((_, .ok reports), after) => Spares path tree after reports := by
  simp only [compilePath, run_bind, looks_findSources]
  cases found : ((findSources path : StateM FileTree _).run tree).1 with
  | error error => rfl
  | ok sources =>
    obtain ⟨rewrites, same⟩ := run_mapM_compileSource limit sources tree
    have named := named_findSources found
    exact named.spares same rewrites

/-- A file of instructions and nothing else. -/
def instructionsAlone : FileTree :=
  (FileTree.ofCurrent ["home"]).putHere ["Main.vm"] (.file "push constant 7\n".toUTF8)

/-- A file of instructions that is named as a source is its own output, and it is emptied. -/
theorem compilePath_instructionsAlone :
    let ran := (compilePath 128 "Main.vm" : StateM FileTree _).run instructionsAlone
    ran.1.2.toOption.map (List.map fun report => (report.source, report.output)) =
        some [("Main.vm", "Main.vm")] ∧
      (instructionsAlone.read "Main.vm").toOption = some "push constant 7\n".toUTF8 ∧
      (ran.2.read "Main.vm").toOption = some .empty := by
  decide +kernel

end Batch

end Jack
