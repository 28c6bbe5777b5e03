import LogPager.CommandLine.Launch
import LogPager.Proofs.Session.Filling
import LogPager.Proofs.Source.Histories

/-!
# What the program prints at first

Settings that were loaded are without flaw, and the options raise their bound so
that the printed records fit into it.  Whatever files were found, filling the
window therefore ends, and the last records of the file are printed.
-/

namespace LogPager

namespace Settings

theorem flaw?_of_check {path : String} {settings checked : Settings}
    (accepted : check path settings = .ok checked) : checked.flaw? = none := by
  unfold check at accepted
  split at accepted
  · cases accepted
  · rename_i sound
    cases accepted
    exact sound

theorem flaw?_of_loadFile {home : String} {files : FileSystem} {path : String}
    {settings : Settings} (loaded : loadFile home files path = .ok settings) :
    settings.flaw? = none := by
  unfold loadFile at loaded
  cases read : readOverrides files path with
  | error error => simp [read, bind, Except.bind] at loaded
  | ok overrides =>
      simp only [read, bind, Except.bind] at loaded
      exact flaw?_of_check loaded

theorem flaw?_of_load {home : String} {files : FileSystem} {found : Found}
    {settings : Settings} (loaded : load home files found = .ok settings) :
    settings.flaw? = none := by
  unfold load at loaded
  cases layers : found.layers.getLast? with
  | none =>
      have none := List.getLast?_eq_none_iff.mp layers
      rw [none] at loaded
      cases loaded
      rfl
  | some path =>
      simp only [layers, bind, Except.bind] at loaded
      split at loaded
      · cases loaded
      · exact flaw?_of_check loaded

end Settings

/-- Settings under the options ask for a record at a time at least, and hold the
records that are printed. -/
theorem Options.apply_fits (options : Options) {settings : Settings}
    (sound : settings.flaw? = none) :
    ∀ most, (options.apply settings).maxRecords = some most →
      0 < most ∧ options.lines ≤ most := by
  obtain ⟨asks, fits⟩ := settings.flaw?_eq_none_iff.mp sound
  intro most given
  simp only [apply, Option.map_eq_some_iff] at given
  obtain ⟨least, given, rfl⟩ := given
  have holds := fits least given
  omega

theorem Surroundings.settings_fits {around : Surroundings} {options : Options}
    {settings : Settings} (loaded : around.settings options = .ok settings) :
    ∀ most, settings.maxRecords = some most →
      0 < most ∧ options.lines ≤ most := by
  unfold Surroundings.settings at loaded
  dsimp only at loaded
  split at loaded
  · rename_i path config
    cases read : Settings.loadFile around.home around.files path with
    | error error =>
        rw [read] at loaded
        cases loaded
    | ok lower =>
        rw [read] at loaded
        cases loaded
        exact options.apply_fits (Settings.flaw?_of_loadFile read)
  · rename_i config
    generalize Settings.search _ _ _ = layers at loaded
    cases read : Settings.load around.home around.files layers with
    | error error =>
        rw [read] at loaded
        cases loaded
    | ok lower =>
        rw [read] at loaded
        cases loaded
        exact options.apply_fits (Settings.flaw?_of_load read)

theorem Viewer.openAt_of_found {files : FileSystem} {folder : LogFolder}
    {contents : String → List UInt8} {settings : Settings} {file : FileRef}
    {wanted : Nat} (holds : folder.Holds files contents file.name)
    (fits : ∀ most, settings.maxRecords = some most →
      0 < most ∧ wanted ≤ most) (styling : Styling) :
    ∃ rounds viewer,
      Session.Fills (fun folder request => folder.fetch files request false)
        wanted rounds folder
        ((Session.new settings.fetchLimit settings.maxRecords).openFile file).2
        (.ok ()) viewer.folder viewer.session ∧
      Viewer.openAt files folder settings file wanted = .ok viewer ∧
      viewer.tailLines styling wanted =
        ((fileRecords (contents file.name)).drop
          ((fileRecords (contents file.name)).length - wanted)).map
            (·.display styling) := by
  have bounded : settings.maxRecords ≠ some 0 := by
    intro given
    exact absurd (fits 0 given).1 (Nat.lt_irrefl 0)
  obtain ⟨rounds, next, after, fills, filled, tail⟩ :=
    Session.fillOlder_from_file holds settings.fetchLimit bounded
      fun most given => (fits most given).2
  refine ⟨rounds,
    { folder := next, session := after, file, batch := settings.fetchLimit },
    fills, ?_, ?_⟩
  · simp only [Viewer.openAt, filled]
  · rw [← tail, tailLines]
    cases after.snapshot <;> rfl

theorem Viewer.file_of_openAt {files : FileSystem} {folder : LogFolder}
    {settings : Settings} {file : FileRef} {wanted : Nat} {viewer : Viewer}
    (opened : openAt files folder settings file wanted = .ok viewer) :
    viewer.file = file := by
  simp only [openAt] at opened
  split at opened
  · cases opened
  · cases opened
    rfl

theorem LogFolder.eq_of_openAt {files : FileSystem} {path : String}
    {folder : LogFolder} (opened : openAt files path = .ok folder) :
    folder = { path } := by
  unfold openAt at opened
  split at opened
  · cases opened
    rfl
  · cases opened

theorem launch_of_openAt {around : Surroundings} {options : Options}
    {settings : Settings} {folder : LogFolder} {file : FileRef}
    {viewer : Viewer} (loaded : around.settings options = .ok settings)
    (opened : LogFolder.openAt around.files settings.folder = .ok folder)
    (shows : options.list = false)
    (chosen : fileToOpen around.files folder options = .ok file)
    (view : Viewer.openAt around.files folder settings file options.lines =
      .ok viewer) (styling : Styling) :
    launch around styling options = .ok {
      lines := viewer.tailLines styling options.lines
      viewer := some viewer } := by
  simp only [launch, loaded, opened, shows, chosen, view, bind, Except.bind,
    Bool.false_eq_true, if_false]
  rfl

theorem launched_openAt {around : Surroundings} {styling : Styling}
    {options : Options} {launched : Launched} {viewer : Viewer}
    (ran : launch around styling options = .ok launched)
    (shown : launched.viewer = some viewer) :
    ∃ settings folder file, around.settings options = .ok settings ∧
      Viewer.openAt around.files folder settings file options.lines =
        .ok viewer := by
  unfold launch at ran
  cases loaded : around.settings options with
  | error error => simp [loaded, bind, Except.bind] at ran
  | ok settings =>
      simp only [loaded, bind, Except.bind] at ran
      split at ran
      · cases ran
      · split at ran
        · split at ran
          · cases ran
          · cases ran
            cases shown
        · split at ran
          · cases ran
          · split at ran
            · cases ran
            · rename_i opened
              cases ran
              cases shown
              exact ⟨settings, _, _, rfl, opened⟩

/-- Whatever settings were loaded and whatever the options ask for: once the
file to show is found, filling the window ends, and the last of its records are
printed, as many as asked for or as there are, oldest first. -/
theorem launch_prints_last {around : Surroundings} {options : Options}
    {settings : Settings} {folder : LogFolder} {file : FileRef}
    {data : List UInt8} (loaded : around.settings options = .ok settings)
    (opened : LogFolder.openAt around.files settings.folder = .ok folder)
    (shows : options.list = false)
    (chosen : fileToOpen around.files folder options = .ok file)
    (found : folder.contents? around.files file.name = some data)
    (styling : Styling) :
    ∃ rounds viewer,
      Session.Fills
        (fun folder request => folder.fetch around.files request false)
        options.lines rounds folder
        ((Session.new settings.fetchLimit settings.maxRecords).openFile file).2
        (.ok ()) viewer.folder viewer.session ∧
      launch around styling options = .ok {
        lines := ((fileRecords data).drop
          ((completeLines data).length - options.lines)).map (·.display styling)
        viewer := some viewer } := by
  have holds : folder.Holds around.files
      (fun name => (folder.contents? around.files name).getD []) file.name := by
    constructor
    · rw [LogFolder.eq_of_openAt opened]
      exact LogFolder.follows_of_new _ _
    · rw [found, Option.getD_some]
  obtain ⟨rounds, viewer, fills, view, printed⟩ :=
    Viewer.openAt_of_found holds (Surroundings.settings_fits loaded) styling
  refine ⟨rounds, viewer, fills, ?_⟩
  rw [found, Option.getD_some, length_fileRecords] at printed
  rw [launch_of_openAt loaded opened shows chosen view, printed]

/-- The program is asked for the last two records of a file of three lines, and
reads one at a time. -/
def lastTwo : Options :=
  { dir := some "/", file := some "a", limit := some 1, lines := 2 }

/-- Three lines and no settings files. -/
def threeLines : Surroundings :=
  { files := LogFolder.oneFile [0x61, 0x0A, 0x62, 0x0A, 0x63, 0x0A], home := "" }

private theorem isFile_threeLines {path : String} (name : FileName)
    (rest : List FileName)
    (begins : threeLines.files.start? [] path = some ([], name :: rest))
    (plain : name ≠ [0x2E] ∧ name ≠ [0x2E, 0x2E]) (other : name ≠ [0x61]) :
    threeLines.files.isFile path = false := by
  have absent : (name == [0x61]) = false := by simpa using other
  simp only [threeLines, LogFolder.oneFile] at begins
  simp [FileSystem.isFile, FileSystem.node?, FileSystem.find?, threeLines,
    LogFolder.oneFile, begins, FileSystem.walk, Node.at?, plain, absent,
    List.lookup_cons, List.lookup_nil]

theorem settings_lastTwo :
    threeLines.settings lastTwo = .ok (lastTwo.apply {}) := by
  have candidates : Settings.projectCandidates threeLines.files
      threeLines.files.here = ["chunktail.yaml"] := by decide +kernel
  have project : threeLines.files.isFile "chunktail.yaml" = false :=
    isFile_threeLines (Text.Utf8.encode "chunktail.yaml") []
      (by decide +kernel) (by decide +kernel) (by decide +kernel)
  have global : threeLines.files.isFile
      (Path.join threeLines.home Settings.globalFile) = false :=
    isFile_threeLines (Text.Utf8.encode ".config")
      [Text.Utf8.encode "chunktail", Text.Utf8.encode "config.yaml"]
      (by decide +kernel) (by decide +kernel) (by decide +kernel)
  have nothing : Settings.search threeLines.files threeLines.files.here
      (some (Path.join threeLines.home Settings.globalFile)) = {} := by
    simp [Settings.search, candidates, project, global]
  simp only [Surroundings.settings, lastTwo, nothing]
  rfl

theorem openAt_threeLines :
    LogFolder.openAt threeLines.files (lastTwo.apply {}).folder =
      .ok { path := "/" } := by
  have begins : threeLines.files.start? [] "/" = some ([], [[0x2E]]) := by
    decide +kernel
  simp only [threeLines, LogFolder.oneFile] at begins
  have folder : threeLines.files.isFolder "/" = true := by
    simp [FileSystem.isFolder, FileSystem.node?, FileSystem.find?, threeLines,
      LogFolder.oneFile, begins, FileSystem.walk, Node.at?, Node.isFolder]
  exact if_pos folder

theorem launch_prints_last_two :
    ∃ viewer, launch threeLines .plain lastTwo =
      .ok { lines := ["b", "c"], viewer := some viewer } := by
  obtain ⟨_, viewer, _, printed⟩ := launch_prints_last settings_lastTwo
    openAt_threeLines rfl rfl (LogFolder.contents?_oneFile _) .plain
  refine ⟨viewer, printed.trans ?_⟩
  have lines : ((fileRecords [0x61, 0x0A, 0x62, 0x0A, 0x63, 0x0A]).drop
      ((completeLines [0x61, 0x0A, 0x62, 0x0A, 0x63, 0x0A]).length -
        lastTwo.lines)).map (·.display .plain) = ["b", "c"] := by
    decide +kernel
  rw [lines]

end LogPager
