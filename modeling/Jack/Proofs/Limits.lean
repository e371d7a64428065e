import Jack.Proofs.Separate
import Jack.Run

namespace Jack.Run

variable [Readers] {disk : Disk} {line : CommandLine} {path : String} {said : Option Nat}

/-- What is said of the limit by the settings file that a command line names, if it names one. Such
a file can be read, and there are settings in it. -/
inductive Loads (disk : Disk) : Option String → Option Nat → Prop
  | unnamed : Loads disk none none
  | file {path : String} {bytes : ByteArray} {said : Option Nat}
      (holds : disk.read path = .ok bytes) (isSaid : Readers.settings bytes = .ok said) :
      Loads disk (some path) said

/-- The limit of a command line: its own if it gives one, else that of its settings file if there
is one, and else 128. -/
def HasLimit (disk : Disk) (line : CommandLine) (limit : Nat) : Prop :=
  ∃ said, Loads disk line.config said ∧ limit = (line.maxDepth <|> said).getD 128

/-- A file says one thing of the limit. -/
theorem Loads.unique {config : Option String} {other : Option Nat}
    (loads : Loads disk config said) (loads' : Loads disk config other) : said = other := by
  cases loads with
  | unnamed =>
    cases loads'
    rfl
  | file holds isSaid =>
    obtain _ | ⟨holds', isSaid'⟩ := loads'
    obtain rfl := Except.ok.inj (holds.symm.trans holds')
    exact Except.ok.inj (isSaid.symm.trans isSaid')

/-- The flag goes before what the file says, and this before the default. -/
theorem hasLimit_iff (loads : Loads disk line.config said) (limit : Nat) :
    HasLimit disk line limit ↔
      limit = line.maxDepth.getD (Settings.ofLimit? said).maxDepth := by
  have merged : (line.maxDepth <|> said).getD 128 =
      line.maxDepth.getD (Settings.ofLimit? said).maxDepth := by
    cases line.maxDepth <;> rfl
  constructor
  · rintro ⟨other, loads', rfl⟩
    rw [← loads.unique loads', merged]
  · rintro rfl
    exact ⟨said, loads, merged.symm⟩

theorem run_loadSettings (loads : Loads disk (some path) said) :
    (loadSettings path : StateM Disk _).run disk = (.ok (.ofLimit? said), disk) := by
  obtain _ | ⟨holds, isSaid⟩ := loads
  rw [loadSettings, run_bind, Disk.run_read, holds]
  dsimp only
  rw [isSaid]
  rfl

/-- A settings file is only read, and it is refused if it cannot be read or holds no settings. -/
theorem loadSettings_cases (disk : Disk) (path : String) :
    (∃ said, Loads disk (some path) said) ∨
    (∃ error, (loadSettings path : StateM Disk _).run disk = (.error error, disk)) ∧
      ∀ said, ¬Loads disk (some path) said := by
  cases reads : disk.read path with
  | error error =>
    refine .inr ⟨?_, ?_⟩
    · rw [loadSettings, run_bind, Disk.run_read, reads]
      cases error <;> exact ⟨_, rfl⟩
    · rintro said (_ | ⟨holds, -⟩)
      cases reads.symm.trans holds
  | ok bytes =>
    cases found : Readers.settings bytes with
    | ok said => exact .inl ⟨said, .file reads found⟩
    | error reason =>
      refine .inr ⟨⟨.settings reason, ?_⟩, ?_⟩
      · rw [loadSettings, run_bind, Disk.run_read, reads]
        dsimp only
        rw [found]
        rfl
      · rintro said (_ | ⟨holds, isSaid⟩)
        obtain rfl := Except.ok.inj (reads.symm.trans holds)
        cases found.symm.trans isSaid

theorem run_settingsOf (disk : Disk) (named : line.config = some path) :
    (settingsOf line : StateM Disk _).run disk =
      match (loadSettings path : StateM Disk _).run disk with
      | (.error error, after) => (([], .error error), after)
      | (.ok settings, after) =>
        (([⟨.debug, s!"loaded configuration {path}: {settings.describe}"⟩], .ok settings),
          after) := by
  rw [settingsOf, named]
  dsimp only
  rw [run_bind]
  rcases (loadSettings path : StateM Disk _).run disk with ⟨_ | _, _⟩ <;> rfl

/-- Settings that are loaded give the limit, and none are loaded where there is no limit. -/
theorem settingsOf_cases (disk : Disk) (line : CommandLine) :
    (∃ messages settings, (settingsOf line : StateM Disk _).run disk =
        ((messages, .ok settings), disk) ∧
      ∀ limit, HasLimit disk line limit ↔ limit = line.maxDepth.getD settings.maxDepth) ∨
    (∃ messages error, (settingsOf line : StateM Disk _).run disk =
      ((messages, .error error), disk)) ∧ ∀ limit, ¬HasLimit disk line limit := by
  cases named : line.config with
  | none =>
    have loads : Loads disk line.config none := named ▸ .unnamed
    refine .inl ⟨[], .default, ?_, hasLimit_iff loads⟩
    rw [settingsOf, named]
    rfl
  | some path =>
    rw [run_settingsOf disk named]
    obtain ⟨said, loads⟩ | ⟨⟨error, refused⟩, nothing⟩ := loadSettings_cases disk path
    · have isLoaded : Loads disk line.config said := named ▸ loads
      rw [run_loadSettings loads]
      exact .inl ⟨_, _, rfl, hasLimit_iff isLoaded⟩
    · rw [refused]
      refine .inr ⟨⟨_, _, rfl⟩, ?_⟩
      rintro limit ⟨said, loads, -⟩
      exact nothing said (named ▸ loads)

end Jack.Run
