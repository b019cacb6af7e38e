import Mathlib.Data.Finset.Card
import RobotFramework.Iteration
import RobotFramework.LogAnalysis.Quarantine

/-!
# The retry loop on a disk

`reindex_bag` once more, with the whole disk: the bag may be any directory, symbolic links may lead
anywhere, and a run of the command may do anything to the disk. A turn of the loop that goes on has
moved a file out of the bag (`quarantineFile_cases`), except in a bag that is the root of the file
system, where the quarantine directory lies in the bag.
-/

namespace LogAnalysis

namespace OnDisk

open Python

/-! ## The code -/

/-- The regular files by their real paths, the directories, and what links make of a path. -/
structure Disk where
  files : Files
  directories : List Path
  /-- `os.path.realpath`. -/
  realpath : List Char → Except PyError Path

/-- What the code finds around it. `tempfile.mkdtemp` gives a directory that was not there. -/
structure Environment where
  bagRealpath : Path
  metadataFile : List Char
  quarantineName : List Char
  fresh : bagRealpath.getLast? ≠ some quarantineName
  mkdtempFails : Disk → Bool
  moveFails : Disk → Path → Bool

/-- `os.path.exists`. -/
def Disk.exists (d : Disk) (path : List Char) : Bool :=
  match d.realpath path with
  | .error _ => false
  | .ok realpath => (d.files.lookup realpath).isSome || realpath ∈ d.directories

/-- The disk, `quarantine_dir` and `quarantined_files`. -/
structure State where
  disk : Disk
  quarantineDir : Option Path
  quarantinedFiles : List (Path × Path)

/-- `tempfile.mkdtemp(..., dir=os.path.dirname(bag_realpath))`; the root is its own directory. -/
def Environment.mkdtemp (env : Environment) : Path := env.bagRealpath.dropLast ++ [env.quarantineName]

/-- The state with a quarantine directory. -/
def State.withQuarantineDir (s : State) (dir : Path) : State :=
  { s with
    disk := { s.disk with directories := s.disk.directories ++ [dir] }
    quarantineDir := some dir }

/-- `shutil.move` to a path in the quarantine directory, and what follows it. -/
def State.moveAway (s : State) (fileRealpath : Path) (content : Content) (quarantinedPath : Path) :
    State :=
  { s with
    disk := { s.disk with
      files := (s.disk.files.erase fileRealpath).insert quarantinedPath content
      directories := s.disk.directories ++ quarantinedPath.dropLast.inits }
    quarantinedFiles := s.quarantinedFiles ++ [(fileRealpath, quarantinedPath)] }

/-- The end of `quarantine_file`, once there is a quarantine directory. -/
def moveFile (env : Environment) (fileRealpath : Path) (content : Content) (dir : Path) (s : State) :
    Except PyError Bool × State :=
  let relativePath := fileRealpath.drop env.bagRealpath.length
  if env.moveFails s.disk fileRealpath then (.error .osError, s)
  else (.ok true, s.moveAway fileRealpath content (dir ++ relativePath))

/-- `quarantine_file`. -/
def quarantineFile (env : Environment) (filePath : List Char) (s : State) :
    Except PyError Bool × State :=
  match s.disk.realpath filePath with
  | .error error => (.error error, s)
  | .ok fileRealpath =>
    if ¬ env.bagRealpath <+: fileRealpath then (.ok false, s)
    else
      match s.disk.files.lookup fileRealpath with
      | none => (.ok false, s)
      | some content =>
        match s.quarantineDir with
        | some dir => moveFile env fileRealpath content dir s
        | none =>
          if env.mkdtempFails s.disk then (.error .osError, s)
          else moveFile env fileRealpath content env.mkdtemp (s.withQuarantineDir env.mkdtemp)

/-- The absolute path of some names. -/
def pathText (path : Path) : List Char := path.flatMap ('/' :: ·)

/-- The loop over `os.scandir(bag_realpath)`, which gives the names of the entries. -/
def scanEmpty (env : Environment) : List (List Char) → State → Except PyError Bool × State
  | [], s => (.ok true, s)
  | name :: names, s =>
    let path := pathText (env.bagRealpath ++ [name])
    let content := (s.disk.realpath path).toOption.bind fun realpath => s.disk.files.lookup realpath
    if content = some [] ∧ endsWithMcap name then
      match quarantineFile env path s with
      | (.ok true, s) => scanEmpty env names s
      | stopped => stopped
    else scanEmpty env names s

/-- How a run of `ros2 bag reindex` ends. -/
inductive Ending where
  | completed (returncode : Int) (stdout stderr : List Char)
  | fileNotFound
  | timeoutExpired
  | raised (error : PyError)

/-- A run of `ros2 bag reindex`: what it does to the disk, and how it ends. -/
structure Run where
  effect : Disk → Disk
  ending : Ending

/-- One turn of the `while` loop: it ends the loop with the value of `success`, or goes on. -/
def reindexTurn (env : Environment) (s : State) (run : Run) : (Except PyError Bool × State) ⊕ State :=
  let s := { s with disk := run.effect s.disk }
  match run.ending with
  | .fileNotFound => .inl (.ok false, s)
  | .timeoutExpired => .inl (.ok false, s)
  | .raised error => .inl (.error error, s)
  | .completed returncode stdout stderr =>
    match search (stdout ++ '\n' :: stderr) with
    | some path =>
      match quarantineFile env path s with
      | (.ok true, s) => .inr s
      | stopped => .inl stopped
    | none => .inl (.ok (returncode = 0 && s.disk.exists env.metadataFile), s)

/-- The body of the `try` statement, with the runs of the command; none if it is still running. -/
def tryBlock (env : Environment) (entries : List (List Char)) (runs : List Run) (d : Disk) :
    Option (Except PyError Bool × State) :=
  match scanEmpty env entries ⟨d, none, []⟩ with
  | (.ok true, s) => Iteration.run (reindexTurn env) runs s
  | stopped => some stopped

/-- The number of runs of the command. -/
def commandRuns (env : Environment) (entries : List (List Char)) (runs : List Run) (d : Disk) : Nat :=
  match scanEmpty env entries ⟨d, none, []⟩ with
  | (.ok true, s) => Iteration.turns (reindexTurn env) runs s
  | _ => 0

/-! ## Files in the bag -/

/-- The files below the bag directory. -/
def filesInBag (env : Environment) (d : Disk) : Finset Path :=
  d.files.keys.toFinset.filter (env.bagRealpath <+: ·)

/-- Some path that ends in `.mcap` leads to the file. -/
def IsMcap (d : Disk) (file : Path) : Prop :=
  ∃ path, isMcapPath path = true ∧ d.realpath path = .ok file

open Classical in
/-- The `.mcap` files of the bag. -/
noncomputable def mcapFiles (env : Environment) (d : Disk) : Finset Path :=
  (filesInBag env d).filter (IsMcap d)

/-- The run creates no new `.mcap` file in the bag, whatever the disk it finds. -/
def Run.CreatesNoMcap (env : Environment) (run : Run) : Prop :=
  ∀ d, mcapFiles env (run.effect d) ⊆ mcapFiles env d

variable {env : Environment} {s : State}

theorem mem_filesInBag {d : Disk} {file : Path} :
    file ∈ filesInBag env d ↔ file ∈ d.files ∧ env.bagRealpath <+: file := by
  unfold filesInBag
  rw [Finset.mem_filter, List.mem_toFinset, AList.mem_keys]

theorem mem_mcapFiles {d : Disk} {file : Path} :
    file ∈ mcapFiles env d ↔ file ∈ filesInBag env d ∧ IsMcap d file := by
  classical
  unfold mcapFiles
  rw [Finset.mem_filter]

theorem card_mcapFiles_le (env : Environment) (d : Disk) :
    (mcapFiles env d).card ≤ (filesInBag env d).card :=
  Finset.card_le_card fun _ hfile => (mem_mcapFiles.mp hfile).1

theorem quarantine_outside (hroot : env.bagRealpath ≠ []) (relativePath : Path) :
    ¬ env.bagRealpath <+: env.mkdtemp ++ relativePath := by
  obtain ⟨parent, name, hbag⟩ : ∃ parent name, env.bagRealpath = parent ++ [name] :=
    (List.eq_nil_or_concat' _).resolve_left hroot
  have hfresh := env.fresh
  unfold Environment.mkdtemp
  rw [hbag] at hfresh ⊢
  rw [List.dropLast_concat, List.append_assoc, List.prefix_append_right_inj, List.singleton_append,
    List.cons_prefix_cons]
  rintro ⟨rfl, -⟩
  exact hfresh List.getLast?_concat

/-! ## A call of `quarantine_file` -/

/-- The quarantine directory, once there is one, is the one that was made. -/
def State.Quarantining (env : Environment) (s : State) : Prop :=
  ∀ dir, s.quarantineDir = some dir → dir = env.mkdtemp

/-- The file at a real path has been moved to the quarantine directory, and nothing else. -/
structure Moved (env : Environment) (fileRealpath : Path) (s s' : State) : Prop where
  found : fileRealpath ∈ filesInBag env s.disk
  files : ∀ file, file ∈ s'.disk.files ↔
    file = env.mkdtemp ++ fileRealpath.drop env.bagRealpath.length ∨
      file ≠ fileRealpath ∧ file ∈ s.disk.files
  realpath : s'.disk.realpath = s.disk.realpath
  quarantining : s'.Quarantining env

/-- The files are where they were. -/
structure Unmoved (env : Environment) (s s' : State) : Prop where
  files : s'.disk.files = s.disk.files
  realpath : s'.disk.realpath = s.disk.realpath
  quarantining : s'.Quarantining env

theorem moveFile_cases {fileRealpath : Path} (content : Content)
    (hfound : fileRealpath ∈ filesInBag env s.disk) (hs : s.Quarantining env) :
    (∃ s', moveFile env fileRealpath content env.mkdtemp s = (.ok true, s') ∧
        Moved env fileRealpath s s') ∨
      ∃ result s', moveFile env fileRealpath content env.mkdtemp s = (result, s') ∧
        result ≠ .ok true ∧ Unmoved env s s' := by
  unfold moveFile
  by_cases hfails : env.moveFails s.disk fileRealpath = true
  · rw [if_pos hfails]
    exact Or.inr ⟨_, _, rfl, by simp, rfl, rfl, hs⟩
  · rw [if_neg hfails]
    refine Or.inl ⟨_, rfl, hfound, fun file => ?_, rfl, hs⟩
    show file ∈ AList.insert _ _ (AList.erase _ _) ↔ _
    rw [AList.mem_insert, AList.mem_erase]

theorem quarantineFile_cases (env : Environment) (filePath : List Char) {s : State}
    (hs : s.Quarantining env) :
    (∃ fileRealpath s', quarantineFile env filePath s = (.ok true, s') ∧
        s.disk.realpath filePath = .ok fileRealpath ∧ Moved env fileRealpath s s') ∨
      ∃ result s', quarantineFile env filePath s = (result, s') ∧ result ≠ .ok true ∧
        Unmoved env s s' := by
  unfold quarantineFile
  cases hreal : s.disk.realpath filePath with
  | error error => exact Or.inr ⟨_, _, rfl, by simp, rfl, rfl, hs⟩
  | ok fileRealpath =>
    dsimp only
    by_cases hinside : env.bagRealpath <+: fileRealpath
    · rw [if_neg (not_not.mpr hinside)]
      cases hfile : s.disk.files.lookup fileRealpath with
      | none => exact Or.inr ⟨_, _, rfl, by simp, rfl, rfl, hs⟩
      | some content =>
        dsimp only
        have hfound : fileRealpath ∈ filesInBag env s.disk :=
          mem_filesInBag.mpr ⟨AList.lookup_isSome.mp (by rw [hfile]; rfl), hinside⟩
        cases hdir : s.quarantineDir with
        | some dir =>
          obtain rfl := hs dir hdir
          rcases moveFile_cases content hfound hs with
            ⟨s', hmove, hmoved⟩ | ⟨result, s', hmove, hne, hunmoved⟩
          · exact Or.inl ⟨_, s', hmove, rfl, hmoved⟩
          · exact Or.inr ⟨result, s', hmove, hne, hunmoved⟩
        | none =>
          dsimp only
          by_cases hmkdtemp : env.mkdtempFails s.disk = true
          · rw [if_pos hmkdtemp]
            exact Or.inr ⟨_, _, rfl, by simp, rfl, rfl, hs⟩
          · rw [if_neg hmkdtemp]
            have hmade : (s.withQuarantineDir env.mkdtemp).Quarantining env :=
              fun dir hdir => (Option.some.inj hdir).symm
            rcases moveFile_cases content (s := s.withQuarantineDir env.mkdtemp) hfound hmade with ⟨s', hmove, hmoved⟩ | ⟨result, s', hmove, hne, hunmoved⟩
            · exact Or.inl ⟨_, s', hmove, rfl, hmoved.found, hmoved.files, hmoved.realpath,
                hmoved.quarantining⟩
            · exact Or.inr ⟨result, s', hmove, hne, hunmoved.files, hunmoved.realpath,
                hunmoved.quarantining⟩
    · rw [if_pos hinside]
      exact Or.inr ⟨_, _, rfl, by simp, rfl, rfl, hs⟩

/-! ## The measure of the loop -/

/-- Off the root a file that is moved leaves the bag. -/
theorem Moved.filesInBag (hroot : env.bagRealpath ≠ []) {fileRealpath : Path} {s' : State}
    (h : Moved env fileRealpath s s') :
    filesInBag env s'.disk = (filesInBag env s.disk).erase fileRealpath := by
  ext file
  rw [Finset.mem_erase, mem_filesInBag, mem_filesInBag, h.files]
  constructor
  · rintro ⟨rfl | ⟨hne, hfile⟩, hinside⟩
    · exact absurd hinside (quarantine_outside hroot _)
    · exact ⟨hne, hfile, hinside⟩
  · rintro ⟨hne, hfile, hinside⟩
    exact ⟨Or.inr ⟨hne, hfile⟩, hinside⟩

theorem Moved.mcapFiles (hroot : env.bagRealpath ≠ []) {fileRealpath : Path} {s' : State}
    (h : Moved env fileRealpath s s') :
    mcapFiles env s'.disk = (mcapFiles env s.disk).erase fileRealpath := by
  ext file
  rw [Finset.mem_erase, mem_mcapFiles, mem_mcapFiles, h.filesInBag hroot, Finset.mem_erase, and_assoc]
  unfold IsMcap
  rw [h.realpath]

theorem Unmoved.filesInBag {s' : State} (h : Unmoved env s s') :
    filesInBag env s'.disk = filesInBag env s.disk := by
  unfold OnDisk.filesInBag
  rw [h.files]

theorem scanEmpty_spec (hroot : env.bagRealpath ≠ []) (names : List (List Char)) {s : State}
    (hs : s.Quarantining env) :
    (scanEmpty env names s).2.Quarantining env ∧
      filesInBag env (scanEmpty env names s).2.disk ⊆ filesInBag env s.disk := by
  induction names generalizing s with
  | nil => exact ⟨hs, subset_rfl⟩
  | cons name names ih =>
    unfold scanEmpty
    dsimp only
    split_ifs with hempty
    · rcases quarantineFile_cases env (pathText (env.bagRealpath ++ [name])) hs with
        ⟨file, s', hcall, -, hmoved⟩ | ⟨result, s', hcall, hne, hunmoved⟩
      · rw [hcall]
        obtain ⟨hrest, hsubset⟩ := ih hmoved.quarantining
        rw [hmoved.filesInBag hroot] at hsubset
        exact ⟨hrest, hsubset.trans (Finset.erase_subset _ _)⟩
      · rw [hcall]
        split
        · rename_i heq
          exact absurd (Prod.mk.inj heq).1 hne
        · exact ⟨hunmoved.quarantining, hunmoved.filesInBag.subset⟩
    · exact ih hs

/-- A turn that goes on has moved a `.mcap` file out of the bag. -/
theorem reindexTurn_again (hroot : env.bagRealpath ≠ []) {run : Run} (hrun : run.CreatesNoMcap env)
    {s t : State} (hs : s.Quarantining env) (hturn : reindexTurn env s run = .inr t) :
    t.Quarantining env ∧ (mcapFiles env t.disk).card < (mcapFiles env s.disk).card := by
  have hcreated : (mcapFiles env (run.effect s.disk)).card ≤ (mcapFiles env s.disk).card :=
    Finset.card_le_card (hrun s.disk)
  unfold reindexTurn at hturn
  cases hending : run.ending with
  | fileNotFound | timeoutExpired | raised error =>
    rw [hending] at hturn
    cases hturn
  | completed returncode stdout stderr =>
    rw [hending] at hturn
    dsimp only at hturn
    cases hsearch : search (stdout ++ '\n' :: stderr) with
    | none =>
      rw [hsearch] at hturn
      cases hturn
    | some path =>
      rw [hsearch] at hturn
      dsimp only at hturn
      have hafter : State.Quarantining env { s with disk := run.effect s.disk } := hs
      rcases quarantineFile_cases env path hafter with
        ⟨file, s', hcall, hreal, hmoved⟩ | ⟨result, s', hcall, hne, -⟩
      · rw [hcall] at hturn
        obtain rfl := Sum.inr.inj hturn
        have hfile : file ∈ mcapFiles env (run.effect s.disk) :=
          mem_mcapFiles.mpr ⟨hmoved.found, path, isMcapPath_of_search hsearch, hreal⟩
        refine ⟨hmoved.quarantining, ?_⟩
        rw [hmoved.mcapFiles hroot]
        exact (Finset.card_erase_lt_of_mem hfile).trans_le hcreated
      · rw [hcall] at hturn
        split at hturn
        · rename_i heq
          exact absurd (Prod.mk.inj heq).1 hne
        · cases hturn

/-- **The loop ends.** Off the root, with runs of the command that create no new `.mcap` file in the bag,
the command is run at most once more than there are files in the bag, and then the loop is left. -/
theorem commandRuns_le (env : Environment) (hroot : env.bagRealpath ≠ []) (entries : List (List Char))
    (d : Disk) (runs : List Run) (hruns : ∀ run ∈ runs, run.CreatesNoMcap env) :
    commandRuns env entries runs d ≤ (filesInBag env d).card + 1 ∧
      ((filesInBag env d).card < runs.length → (tryBlock env entries runs d).isSome) := by
  have hstart : State.Quarantining env ⟨d, none, []⟩ := fun dir hdir => by cases hdir
  obtain ⟨hscanned, hsubset⟩ := scanEmpty_spec hroot entries hstart
  have hvariant : Iteration.Variant (reindexTurn env) runs (State.Quarantining env)
      fun s => (mcapFiles env s.disk).card :=
    ⟨fun run hrun s t hs hturn => reindexTurn_again hroot (hruns run hrun) hs hturn⟩
  unfold commandRuns tryBlock
  split
  · rename_i s hscan
    rw [hscan] at hscanned hsubset
    have hle : (mcapFiles env s.disk).card ≤ (filesInBag env d).card :=
      (card_mcapFiles_le env s.disk).trans (Finset.card_le_card hsubset)
    refine ⟨?_, fun hlong => hvariant.run_isSome hscanned (hle.trans_lt hlong)⟩
    exact (hvariant.turns_le hscanned).trans (Nat.add_le_add_right hle 1)
  · exact ⟨Nat.zero_le _, fun _ => rfl⟩

/-! ## Bags without links

Off the root, on a disk where only the directories of paths lead elsewhere and with a command that writes
nothing but `metadata.yaml`, the loop does what `LogAnalysis.reindexLoop` does. -/

section Represents

variable {old : LogAnalysis.Environment}

def endingOf : Outcome → Ending
  | .completed _ returncode stdout stderr => .completed returncode stdout stderr
  | .fileNotFound => .fileNotFound
  | .timeoutExpired _ => .timeoutExpired
  | .raised _ error => .raised error

/-- The run that an outcome amounts to. -/
def runOf (env : Environment) (outcome : Outcome) : Run where
  effect d :=
    let metadata := env.bagRealpath ++ LogAnalysis.metadataFile
    match outcome.created with
    | some content =>
      if (d.files.lookup metadata).isSome || metadata ∈ d.directories then d
      else { d with files := d.files.insert metadata content }
    | none => d
  ending := endingOf outcome

/-- The two environments are the same one. -/
structure Matches (old : LogAnalysis.Environment) (env : Environment) : Prop where
  bagRealpath : env.bagRealpath = old.bagRealpath
  root : env.bagRealpath ≠ []
  mkdtempFails : ∀ d, env.mkdtempFails d = old.mkdtempFails
  moveFails : ∀ d path, env.moveFails d (env.bagRealpath ++ path) = old.moveFails path
  metadataFile : old.realpath env.metadataFile = .ok (env.bagRealpath ++ LogAnalysis.metadataFile)

/-- The disk holds the bag and the quarantine directory of a state. -/
structure Represents (old : LogAnalysis.Environment) (env : Environment) (s : LogAnalysis.State)
    (t : State) : Prop where
  bag : ∀ path, t.disk.files.lookup (env.bagRealpath ++ path) = s.bag.lookup path
  directories : ∀ path, env.bagRealpath ++ path ∈ t.disk.directories ↔ path ∈ s.directories
  realpath : t.disk.realpath = old.realpath
  quarantineDir : t.quarantineDir = s.quarantine.map fun _ => env.mkdtemp
  quarantine : ∀ path, t.disk.files.lookup (env.mkdtemp ++ path) = s.inQuarantine.lookup path
  quarantinedFiles : t.quarantinedFiles =
    s.quarantinedFiles.map fun path => (env.bagRealpath ++ path, env.mkdtemp ++ path)

theorem ne_quarantined (hroot : env.bagRealpath ≠ []) (path path' : Path) :
    env.bagRealpath ++ path ≠ env.mkdtemp ++ path' :=
  fun heq => quarantine_outside hroot path' (heq ▸ List.prefix_append _ path)

theorem Represents.reindexed (m : Matches old env) {s : LogAnalysis.State} {t : State}
    (h : Represents old env s t) (outcome : Outcome) :
    Represents old env (s.reindexed outcome)
      { t with disk := (runOf env outcome).effect t.disk } := by
  unfold LogAnalysis.State.reindexed runOf
  cases outcome.created with
  | none => exact h
  | some content =>
    have hexists : ((t.disk.files.lookup (env.bagRealpath ++ LogAnalysis.metadataFile)).isSome ||
        decide (env.bagRealpath ++ LogAnalysis.metadataFile ∈ t.disk.directories)) =
        s.metadataExists := by
      unfold LogAnalysis.State.metadataExists
      rw [h.bag, decide_eq_decide.mpr (h.directories _)]
    dsimp only
    rw [hexists]
    split_ifs
    · exact h
    · refine ⟨fun path => ?_, h.directories, h.realpath, h.quarantineDir, fun path => ?_,
        h.quarantinedFiles⟩
      · show (t.disk.files.insert (env.bagRealpath ++ LogAnalysis.metadataFile) content).lookup
          (env.bagRealpath ++ path) = (s.bag.insert LogAnalysis.metadataFile content).lookup path
        by_cases hpath : path = LogAnalysis.metadataFile
        · rw [hpath, AList.lookup_insert, AList.lookup_insert]
        · rw [AList.lookup_insert_ne hpath, AList.lookup_insert_ne, h.bag]
          exact fun heq => hpath (List.append_cancel_left heq)
      · have hne := ne_quarantined m.root LogAnalysis.metadataFile path
        show (t.disk.files.insert (env.bagRealpath ++ LogAnalysis.metadataFile) content).lookup
          (env.mkdtemp ++ path) = _
        rw [AList.lookup_insert_ne hne.symm]
        exact h.quarantine path

theorem Represents.metadataExists (m : Matches old env) {s : LogAnalysis.State} {t : State}
    (h : Represents old env s t) : t.disk.exists env.metadataFile = s.metadataExists := by
  unfold Disk.exists LogAnalysis.State.metadataExists
  rw [h.realpath, m.metadataFile]
  dsimp only
  rw [h.bag, decide_eq_decide.mpr (h.directories _)]

theorem Represents.withQuarantineDir (m : Matches old env) {s : LogAnalysis.State} {t : State}
    (h : Represents old env s t) :
    Represents old env { s with quarantine := some s.inQuarantine } (t.withQuarantineDir env.mkdtemp) := by
  refine ⟨h.bag, fun path => ?_, h.realpath, rfl, h.quarantine, h.quarantinedFiles⟩
  have hne : env.bagRealpath ++ path ≠ env.mkdtemp := by
    simpa using ne_quarantined m.root path []
  show _ ∈ t.disk.directories ++ [env.mkdtemp] ↔ _
  rw [List.mem_append, List.mem_singleton, or_iff_left hne, h.directories]

theorem Represents.moveAway (m : Matches old env) {s : LogAnalysis.State} {t : State}
    (h : Represents old env s t) {quarantine : Files} (hquarantine : s.quarantine = some quarantine)
    (path : Path) (content : Content) :
    Represents old env (s.moveAway path content quarantine)
      (t.moveAway (env.bagRealpath ++ path) content (env.mkdtemp ++ path)) := by
  have hin : s.inQuarantine = quarantine := by
    unfold LogAnalysis.State.inQuarantine
    rw [hquarantine]
    rfl
  refine ⟨fun p => ?_, fun p => ?_, h.realpath, ?_, fun p => ?_, ?_⟩
  · have hne := ne_quarantined m.root p path
    show ((t.disk.files.erase (env.bagRealpath ++ path)).insert (env.mkdtemp ++ path) content).lookup
      (env.bagRealpath ++ p) = (s.bag.erase path).lookup p
    rw [AList.lookup_insert_ne hne]
    by_cases hp : p = path
    · rw [hp, AList.lookup_erase, AList.lookup_erase]
    · rw [AList.lookup_erase_ne hp, AList.lookup_erase_ne, h.bag]
      exact fun heq => hp (List.append_cancel_left heq)
  · show _ ∈ t.disk.directories ++ (env.mkdtemp ++ path).dropLast.inits ↔ _
    rw [List.mem_append, List.mem_inits, h.directories]
    refine or_iff_left fun hinside => quarantine_outside m.root path ?_
    exact (List.prefix_append _ p).trans (hinside.trans (List.dropLast_prefix _))
  · show t.quarantineDir = some env.mkdtemp
    rw [h.quarantineDir, hquarantine]
    rfl
  · have hne := ne_quarantined m.root path p
    show ((t.disk.files.erase (env.bagRealpath ++ path)).insert (env.mkdtemp ++ path) content).lookup
      (env.mkdtemp ++ p) = (quarantine.insert path content).lookup p
    by_cases hp : p = path
    · rw [hp, AList.lookup_insert, AList.lookup_insert]
    · rw [AList.lookup_insert_ne hp, AList.lookup_insert_ne, AList.lookup_erase_ne hne.symm,
        h.quarantine, hin]
      exact fun heq => hp (List.append_cancel_left heq)
  · show t.quarantinedFiles ++ _ = (s.quarantinedFiles ++ [path]).map _
    rw [h.quarantinedFiles, List.map_append, List.map_singleton]

/-- The results of both are the same, in states of the same files. -/
def SameEnd (old : LogAnalysis.Environment) (env : Environment)
    (r : Except PyError Bool × LogAnalysis.State) (r' : Except PyError Bool × State) : Prop :=
  r.1 = r'.1 ∧ Represents old env r.2 r'.2

theorem Represents.moveFile (m : Matches old env) {s : LogAnalysis.State} {t : State}
    (h : Represents old env s t) {quarantine : Files} (hquarantine : s.quarantine = some quarantine)
    (path : Path) (content : Content) :
    SameEnd old env
      (if old.moveFails path then (.error .osError, s)
        else (.ok true, s.moveAway path content quarantine))
      (moveFile env (env.bagRealpath ++ path) content env.mkdtemp t) := by
  unfold OnDisk.moveFile
  rw [m.moveFails, List.drop_left]
  split_ifs
  · exact ⟨rfl, h⟩
  · exact ⟨rfl, h.moveAway m hquarantine path content⟩

theorem Represents.quarantineFile (m : Matches old env) {s : LogAnalysis.State} {t : State}
    (h : Represents old env s t) {filePath : List Char} {fileRealpath : Path}
    (hreal : old.realpath filePath = .ok fileRealpath) :
    SameEnd old env (LogAnalysis.quarantineFile old fileRealpath s) (quarantineFile env filePath t) := by
  unfold LogAnalysis.quarantineFile OnDisk.quarantineFile relpath
  rw [h.realpath, hreal, ← m.bagRealpath]
  dsimp only
  by_cases hinside : env.bagRealpath <+: fileRealpath
  · obtain ⟨path, rfl⟩ := hinside
    rw [if_pos (List.prefix_append _ path), if_neg (not_not.mpr (List.prefix_append _ path)),
      List.drop_left]
    dsimp only
    rw [h.bag]
    cases s.bag.lookup path with
    | none => exact ⟨rfl, h⟩
    | some content =>
      dsimp only
      rw [h.quarantineDir]
      cases hquarantine : s.quarantine with
      | some quarantine =>
        rw [if_neg (by simp)]
        have hsame : ({ s with quarantine := some quarantine } : LogAnalysis.State) = s := by
          rw [← hquarantine]
        rw [Option.getD_some, hsame]
        exact h.moveFile m hquarantine path content
      | none =>
        dsimp only [Option.map_none]
        rw [m.mkdtempFails]
        by_cases hfails : old.mkdtempFails = true
        · rw [if_pos ⟨rfl, hfails⟩, if_pos hfails]
          exact ⟨rfl, h⟩
        · rw [if_neg (fun hand => hfails hand.2), if_neg hfails]
          have hmade := h.withQuarantineDir m
          unfold LogAnalysis.State.inQuarantine at hmade
          rw [hquarantine] at hmade
          exact hmade.moveFile m rfl path content
  · rw [if_neg hinside, if_pos hinside]
    exact ⟨rfl, h⟩

theorem reindexTurn_represents (m : Matches old env) {s : LogAnalysis.State} {t : State}
    (h : Represents old env s t) (outcome : Outcome) :
    Sum.LiftRel (SameEnd old env) (Represents old env) (LogAnalysis.reindexTurn old s outcome)
      (reindexTurn env t (runOf env outcome)) := by
  have hreindexed := h.reindexed m outcome
  unfold LogAnalysis.reindexTurn OnDisk.reindexTurn
  rw [show (runOf env outcome).ending = endingOf outcome from rfl]
  cases outcome with
  | fileNotFound | timeoutExpired created | raised created error =>
    exact Sum.LiftRel.inl ⟨rfl, hreindexed⟩
  | completed created returncode stdout stderr =>
    dsimp only [endingOf]
    cases search (stdout ++ '\n' :: stderr) with
    | none =>
      refine Sum.LiftRel.inl ⟨?_, hreindexed⟩
      dsimp only
      rw [hreindexed.metadataExists m]
    | some path =>
      dsimp only
      cases hreal : old.realpath path with
      | error error =>
        unfold OnDisk.quarantineFile
        rw [hreindexed.realpath, hreal]
        exact Sum.LiftRel.inl ⟨rfl, hreindexed⟩
      | ok fileRealpath =>
        dsimp only
        have hcall := hreindexed.quarantineFile m hreal
        generalize LogAnalysis.quarantineFile old fileRealpath _ = call,
          quarantineFile env path _ = call' at hcall ⊢
        obtain ⟨result, s'⟩ := call
        obtain ⟨result', t'⟩ := call'
        obtain ⟨hresult, hafter⟩ := hcall
        obtain rfl : result = result' := hresult
        cases result with
        | error error => exact Sum.LiftRel.inl ⟨rfl, hafter⟩
        | ok moved =>
          cases moved with
          | false => exact Sum.LiftRel.inl ⟨rfl, hafter⟩
          | true => exact Sum.LiftRel.inr hafter

theorem reindexLoop_represents (m : Matches old env) {s : LogAnalysis.State} {t : State}
    (h : Represents old env s t) (outcomes : List Outcome) :
    Option.Rel (SameEnd old env) (reindexLoop old outcomes s)
      (Iteration.run (reindexTurn env) (outcomes.map (runOf env)) t) := by
  rw [reindexLoop_eq_run]
  exact Iteration.Simulates.run ⟨fun s t outcome hst => reindexTurn_represents m hst outcome⟩ outcomes h

end Represents

/-! ## Three bags -/

def names (path : List Char) : Path := (path.splitOn '/').filter (· ≠ [])

/-- A run that changes nothing and reports a file. -/
def reports (path : String) : Run where
  effect := id
  ending := .completed 1 [] ("Could not open '" ++ path ++ "': file too small").toList

/-- A run that succeeds without changing anything. -/
def succeeds : Run := ⟨id, .completed 0 [] []⟩

/-- Nothing fails, and the bag is not the root. -/
def runEnvironment : Environment where
  bagRealpath := ["bags".toList, "run".toList]
  metadataFile := "/bags/run/metadata.yaml".toList
  quarantineName := ".rosbag_reindex_quarantine_1".toList
  fresh := by decide
  mkdtempFails _ := false
  moveFails _ _ := false

def runDisk : Disk where
  files := List.toAList
    [⟨["bags".toList, "run".toList, "b.mcap".toList], [1]⟩,
     ⟨["bags".toList, "run".toList, "c.mcap".toList], [1, 2]⟩]
  directories := []
  realpath path := .ok (names path)

theorem runDisk_commandRuns :
    commandRuns runEnvironment ["b.mcap".toList, "c.mcap".toList]
      [reports "/bags/run/b.mcap", succeeds] runDisk ≤ 3 := by
  have hcard : (filesInBag runEnvironment runDisk).card = 2 := by decide +kernel
  have hruns : ∀ run ∈ [reports "/bags/run/b.mcap", succeeds], run.CreatesNoMcap runEnvironment := by
    intro run hrun
    rcases List.mem_pair.mp hrun with rfl | rfl
    · exact fun d => subset_rfl
    · exact fun d => subset_rfl
  have hbound := (commandRuns_le runEnvironment (by decide) ["b.mcap".toList, "c.mcap".toList] runDisk
    [reports "/bags/run/b.mcap", succeeds] hruns).1
  rwa [hcard] at hbound

/-- The run creates no new file in the bag with a name that ends in `.mcap`. -/
def Run.CreatesNoMcapName (env : Environment) (run : Run) : Prop :=
  ∀ d, ∀ file ∈ filesInBag env (run.effect d),
    (∃ name, file.getLast? = some name ∧ endsWithMcap name = true) → file ∈ filesInBag env d

def rootEnvironment : Environment where
  bagRealpath := []
  metadataFile := "/metadata.yaml".toList
  quarantineName := ".rosbag_reindex_quarantine_1".toList
  fresh := by decide
  mkdtempFails _ := false
  moveFails _ _ := false

def rootDisk : Disk where
  files := List.toAList [⟨["a.mcap".toList], [1]⟩]
  directories := []
  realpath path := .ok (names path)

/-- The file is reported where it is, and where it has been moved to. -/
def rootRuns : List Run :=
  [reports "/a.mcap", reports "/.rosbag_reindex_quarantine_1/a.mcap", succeeds]

/-- A bag with one file and a link `x.mcap` to it. -/
def linkDisk : Disk where
  files := List.toAList [⟨["bags".toList, "run".toList, "notes.txt".toList], [1]⟩]
  directories := []
  realpath path :=
    .ok (if path = "/bags/run/x.mcap".toList then names "/bags/run/notes.txt".toList else names path)

/-- A run that writes the file and reports the link. -/
def writesNotes : Run where
  effect d := { d with files := d.files.insert ["bags".toList, "run".toList, "notes.txt".toList] [1] }
  ending := (reports "/bags/run/x.mcap").ending

theorem writesNotes_creates : writesNotes.CreatesNoMcapName runEnvironment := by
  rintro d file hfile ⟨name, hlast, hname⟩
  obtain ⟨hmem, hinside⟩ := mem_filesInBag.mp hfile
  rcases (AList.mem_insert d.files).mp hmem with rfl | hmem
  · obtain rfl := Option.some.inj hlast
    exact absurd hname (by decide)
  · exact mem_filesInBag.mpr ⟨hmem, hinside⟩

/-- In the root a file that has been moved is still in the bag; and a file that is not named `.mcap` can
be written again and again if a link to it is. -/
theorem commandRuns_exceeds :
    ((∀ run ∈ rootRuns,
        run.CreatesNoMcap rootEnvironment ∧ run.CreatesNoMcapName rootEnvironment) ∧
      (filesInBag rootEnvironment rootDisk).card = 1 ∧
      commandRuns rootEnvironment ["a.mcap".toList] rootRuns rootDisk = 3) ∧
    (writesNotes.CreatesNoMcapName runEnvironment ∧
      (filesInBag runEnvironment linkDisk).card = 1 ∧
      commandRuns runEnvironment ["notes.txt".toList, "x.mcap".toList] (List.replicate 4 writesNotes)
        linkDisk = 4) ∧
    ¬ ∀ env entries d runs, (∀ run ∈ runs, run.CreatesNoMcapName env) →
      commandRuns env entries runs d ≤ (filesInBag env d).card + 1 := by
  have hunchanged : ∀ run ∈ rootRuns,
      run.CreatesNoMcap rootEnvironment ∧ run.CreatesNoMcapName rootEnvironment := by
    intro run hrun
    simp only [rootRuns, List.mem_cons, List.not_mem_nil, or_false] at hrun
    rcases hrun with rfl | rfl | rfl <;> exact ⟨fun d => subset_rfl, fun d file hfile _ => hfile⟩
  have hcard : (filesInBag rootEnvironment rootDisk).card = 1 := by decide +kernel
  have hthree : commandRuns rootEnvironment ["a.mcap".toList] rootRuns rootDisk = 3 := by
    decide +kernel
  refine ⟨⟨hunchanged, hcard, hthree⟩, ⟨writesNotes_creates, ?card, ?four⟩, fun hall => ?_⟩
  case card => decide +kernel
  case four => decide +kernel
  have hbound := hall rootEnvironment ["a.mcap".toList] rootDisk rootRuns fun run hrun =>
    (hunchanged run hrun).2
  rw [hcard, hthree] at hbound
  exact absurd hbound (by decide)

end OnDisk

end LogAnalysis
