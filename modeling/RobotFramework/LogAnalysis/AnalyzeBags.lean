import RobotFramework.LogAnalysis.BagDirectories
import RobotFramework.LogAnalysis.PollingProgress

/-!
# The main program

The main block of `log_analyzer.py` finds the bags below a directory, gives one job for each of them to the
pool, and prints what the workers put under the path of the bag, relative to that directory. From end to end:
every bag below the directory is analyzed once, and what its worker prints appears under a path that no other
bag has (`bags_analyzed`).
-/

namespace LogAnalysis

open History NamedTree

/-! ## The code -/

/-- `[x for x in path.split('/') if x]`. -/
def components (path : List Char) : List (List Char) := (path.splitOn '/').filter (!·.isEmpty)

/-- The length of `os.path.commonprefix` of two lists. -/
def commonLength : List (List Char) → List (List Char) → Nat
  | a :: as, b :: bs => if a = b then commonLength as bs + 1 else 0
  | _, _ => 0

/-- `os.path.relpath(path, start)`, of two absolute paths without `.` and `..`. -/
def relativePath (path start : List Char) : List Char :=
  let startList := components start
  let pathList := components path
  let i := commonLength startList pathList
  let relList := List.replicate (startList.length - i) ['.', '.'] ++ pathList.drop i
  if relList = [] then ['.'] else ['/'].intercalate relList

/-- `MAX_PARALLEL_BAGS`. -/
def maxParallelBags : Nat := 8

/-- `worker_count`. -/
def workerCount (total : Nat) : Nat := max 1 (min maxParallelBags total)

/-- What comes of a bag in its worker: what `generate_metadata_summary` writes and the exception it raises,
and the error that `future.result()` raises. -/
structure Analysis where
  summary : List Write
  error : Option (List Char)
  failure : Option (List Char)

/-- The job that is submitted for a bag. -/
def jobOf (analysis : List Char → Analysis) (bagPath : List Char) : Job where
  bagPath := bagPath
  puts := processBagDirectory bagPath (analysis bagPath).summary (analysis bagPath).error
  failure := (analysis bagPath).failure

/-- The jobs of `bag_directories`, in their order. -/
def jobsOf (analysis : List Char → Analysis) (bagDirectories : List (List Char)) :
    Fin bagDirectories.length → Job := fun i => jobOf analysis (bagDirectories.get i)

/-- What the parent writes, and whether to the standard error. -/
def Output.text (rootPath : List Char) : Output → Bool × List Char
  | .line item =>
    (item.isError, '[' :: relativePath item.bagPath rootPath ++ [']', ' '] ++ item.line ++ ['\n'])
  | .workerFailure bagPath error =>
    (true, '[' :: relativePath bagPath rootPath ++ "] Unexpected worker failure: ".toList ++ error ++ ['\n'])
  | .progress completed total =>
    (false, ("Progress: " ++ toString completed ++ "/" ++ toString total ++ " done, " ++
      toString (total - completed) ++ " left\n").toList)

/-! ## Relative paths -/

theorem components_append_slash (a b : List Char) :
    components (a ++ '/' :: b) = components a ++ components b := by
  unfold components
  rw [List.splitOn_append_cons_self, List.filter_append]

theorem components_of_valid {name : List Char} (h : ValidName name) : components name = [name] := by
  unfold components
  rw [List.splitOn_eq_singleton h.2, List.filter_cons_of_pos]
  · rfl
  · simpa using h.1

theorem components_join (path : List Char) {name : List Char} (h : ValidName name) :
    components (join path name) = components path ++ [name] := by
  rw [join_of_valid path h, ← components_of_valid h]
  unfold separator
  split_ifs with hslash
  · rcases hslash with rfl | hslash
    · rfl
    · -- the path ends in a slash, after which there is nothing
      obtain ⟨start, rfl⟩ := List.getLast?_eq_some_iff.mp hslash
      have hend : components (start ++ ['/']) = components start := by
        rw [components_append_slash]
        exact List.append_nil _
      rw [hend, List.append_nil, List.append_assoc, List.singleton_append, components_append_slash]
  · rw [List.append_assoc, List.singleton_append, components_append_slash]

theorem components_pathOf (rootPath : List Char) {names : List (List Char)} (h : ∀ n ∈ names, ValidName n) :
    components (pathOf rootPath names) = components rootPath ++ names := by
  induction names using List.reverseRecOn with
  | nil => simp [pathOf]
  | append_singleton names name ih =>
    have hnames : ∀ n ∈ names, ValidName n := fun n hn => h n (List.mem_append_left _ hn)
    have hname : ValidName name := h name (by simp)
    unfold pathOf
    rw [List.foldl_append, List.foldl_cons, List.foldl_nil, components_join _ hname]
    show components (pathOf rootPath names) ++ [name] = _
    rw [ih hnames, List.append_assoc]

theorem commonLength_append (as bs : List (List Char)) : commonLength as (as ++ bs) = as.length := by
  induction as with
  | nil => cases bs <;> rfl
  | cons a as ih => simp [commonLength, ih]

theorem relativePath_pathOf (rootPath : List Char) {names : List (List Char)} (h : ∀ n ∈ names, ValidName n) :
    relativePath (pathOf rootPath names) rootPath =
      if names = [] then ['.'] else ['/'].intercalate names := by
  unfold relativePath
  dsimp only
  rw [components_pathOf rootPath h, commonLength_append]
  simp

/-! ## The bags -/

/-- The directory at some names is a bag: it has a bag file, and no directory above it has. -/
def DirectoryTree.IsBag (t : DirectoryTree) (names : List (List Char)) : Prop :=
  t.HasBagFile names ∧ ∀ above, above <+: names → above ≠ names → ¬ t.HasBagFile above

section Bags

variable (rootPath : List Char) (t : DirectoryTree)

theorem mem_topmost_iff {names : List (List Char)} : names ∈ t.root.topmost isBag ↔ t.IsBag names := by
  simp only [t.root.mem_topmost t.distinct, holds_iff_hasBagFile]
  rfl

theorem valid_of_isBag {names : List (List Char)} (h : t.IsBag names) : ∀ n ∈ names, ValidName n :=
  valid_of_topmost t ((mem_topmost_iff t).mpr h)

theorem relativePath_injective {names names' : List (List Char)} (h : t.IsBag names) (h' : t.IsBag names')
    (heq : relativePath (pathOf rootPath names) rootPath = relativePath (pathOf rootPath names') rootPath) :
    names = names' := by
  have hroot {names : List (List Char)} (h : t.IsBag names) (hnil : t.IsBag []) : names = [] := by
    by_contra hne
    exact h.2 [] (List.nil_prefix) (Ne.symm hne) hnil.1
  have hvalid := valid_of_isBag t h
  have hvalid' := valid_of_isBag t h'
  rw [relativePath_pathOf rootPath hvalid, relativePath_pathOf rootPath hvalid'] at heq
  by_cases hnil : names = []
  · subst hnil
    exact (hroot h' h).symm
  by_cases hnil' : names' = []
  · subst hnil'
    exact hroot h h'
  rw [if_neg hnil, if_neg hnil'] at heq
  rw [← List.splitOn_intercalate '/' (fun n hn => (hvalid n hn).2) hnil, heq,
    List.splitOn_intercalate '/' (fun n hn => (hvalid' n hn).2) hnil']

end Bags

/-! ## From end to end -/

/-- The lines that are printed for a bag on one of the two streams. -/
def System.linesOf {total : Nat} (s : System total) (bagPath : List Char) (isError : Bool) : List (List Char) :=
  ((s.parent.printed.filter (·.bagPath = bagPath)).filter (·.isError = isError)).map OutputLine.line

/-- What is reported when bags are completed in an order. -/
def reportsOf (rootPath : List Char) (analysis : List Char → Analysis) (order : List (List (List Char))) :
    List Output :=
  order.zipIdx.flatMap fun (names, i) =>
    ((analysis (pathOf rootPath names)).failure.map
      (Output.workerFailure (pathOf rootPath names))).toList ++ [.progress (i + 1) order.length]

theorem completions_eq {total : Nat} (jobs : Fin total → Job) (completed : Nat) (order : List (Fin total)) :
    completions jobs completed order = (order.zipIdx completed).flatMap fun (i, k) =>
      completion jobs (jobs i).bagPath i (k + 1) := by
  induction order generalizing completed with
  | nil => rfl
  | cons i order ih => rw [completions, ih, List.zipIdx_cons, List.flatMap_cons]

section EndToEnd

variable (rootPath : List Char) (t : DirectoryTree) (analysis : List Char → Analysis)

theorem bagPath_injective :
    Function.Injective fun i => (jobsOf analysis (findBagDirectories rootPath t.root) i).bagPath := by
  apply List.nodup_iff_injective_get.mp
  exact (sorted_findBagDirectories rootPath t).imp fun h => ne_of_lt h

theorem exists_job {names : List (List Char)} (h : t.IsBag names) :
    ∃ i, jobsOf analysis (findBagDirectories rootPath t.root) i = jobOf analysis (pathOf rootPath names) := by
  have hmem : pathOf rootPath names ∈ findBagDirectories rootPath t.root :=
    (mem_findBagDirectories rootPath t).mpr ⟨names, (mem_topmost_iff t).mpr h, rfl⟩
  obtain ⟨i, hi⟩ := List.get_of_mem hmem
  exact ⟨i, congrArg (jobOf analysis) hi⟩

theorem job_isBag (i : Fin (findBagDirectories rootPath t.root).length) :
    ∃ names, t.IsBag names ∧
      jobsOf analysis (findBagDirectories rootPath t.root) i = jobOf analysis (pathOf rootPath names) := by
  obtain ⟨names, hmem, hpath⟩ := (mem_findBagDirectories rootPath t).mp
    (List.get_mem (findBagDirectories rootPath t.root) i)
  exact ⟨names, (mem_topmost_iff t).mp hmem, (congrArg (jobOf analysis) hpath).symm⟩

theorem reports_bags {order : List (Fin (findBagDirectories rootPath t.root).length)}
    (horder : order.Perm (List.finRange _)) :
    ∃ bags : List (List (List Char)), bags.Nodup ∧ (∀ names, names ∈ bags ↔ t.IsBag names) ∧
      bags.length = order.length ∧
      completions (jobsOf analysis (findBagDirectories rootPath t.root)) 0 order =
        reportsOf rootPath analysis bags := by
  choose namesOf hbag hjob using job_isBag rootPath t analysis
  have hlength : order.length = (findBagDirectories rootPath t.root).length := by
    rw [horder.length_eq, List.length_finRange]
  refine ⟨order.map namesOf, ?_, fun names => ?_, List.length_map .., ?_⟩
  · refine (horder.nodup_iff.mpr (List.nodup_finRange _)).map fun i j hij => ?_
    apply bagPath_injective rootPath t analysis
    dsimp only
    rw [hjob i, hjob j, hij]
  · constructor
    · intro h
      obtain ⟨i, -, rfl⟩ := List.mem_map.mp h
      exact hbag i
    · intro h
      obtain ⟨i, hi⟩ := exists_job rootPath t analysis h
      have hpath : pathOf rootPath (namesOf i) = pathOf rootPath names :=
        congrArg Job.bagPath ((hjob i).symm.trans hi)
      have hsame := pathOf_injective rootPath (valid_of_isBag t (hbag i)) (valid_of_isBag t h) hpath
      exact List.mem_map.mpr ⟨i, horder.mem_iff.mpr (List.mem_finRange i), hsame⟩
  · unfold reportsOf
    rw [completions_eq, List.zipIdx_map, List.flatMap_map, List.length_map, hlength]
    apply congrArg (List.flatMap · _)
    funext ⟨i, k⟩
    have hone : completion (jobsOf analysis (findBagDirectories rootPath t.root))
        (jobsOf analysis (findBagDirectories rootPath t.root) i).bagPath i (k + 1) =
          ((analysis (pathOf rootPath (namesOf i))).failure.map
            (Output.workerFailure (pathOf rootPath (namesOf i)))).toList ++
              [.progress (k + 1) (findBagDirectories rootPath t.root).length] := by
      unfold completion
      rw [hjob i]
      rfl
    exact hone

/-- **All bags are analyzed.** For every directory tree, whatever comes of each bag in its worker, and however
the workers and the parent interleave: when the program ends, the lines that are printed for each bag on each
stream are those of the text that its worker wrote there, nothing else is printed for any path, and each bag
is reported once, as failed just if its worker has raised an error. The paths that are shown tell the bags
apart. -/
theorem bags_analyzed (events : List (Event (findBagDirectories rootPath t.root).length))
    (s : System (findBagDirectories rootPath t.root).length)
    (hrun : attempt (System.step (jobsOf analysis (findBagDirectories rootPath t.root))
      (workerCount (findBagDirectories rootPath t.root).length))
      (System.initial (jobsOf analysis (findBagDirectories rootPath t.root))) events = some s)
    (hended : s.parent.control = .ended) :
    (∀ names, t.IsBag names → ∀ isError, s.linesOf (pathOf rootPath names) isError =
        LogAnalysis.linesOf (textOf isError (workerWrites (pathOf rootPath names)
          (analysis (pathOf rootPath names)).summary (analysis (pathOf rootPath names)).error))) ∧
      (∀ item ∈ s.parent.printed, ∃ names, t.IsBag names ∧ item.bagPath = pathOf rootPath names) ∧
      (∃ order : List (List (List Char)), order.Nodup ∧ (∀ names, names ∈ order ↔ t.IsBag names) ∧
        s.parent.reports = reportsOf rootPath analysis order) ∧
      ∀ names names', t.IsBag names → t.IsBag names' →
        relativePath (pathOf rootPath names) rootPath = relativePath (pathOf rootPath names') rootPath →
        names = names' := by
  have hinv := inv_run hrun
  refine ⟨fun names h isError => ?_, fun item hitem => ?_, ?_, fun names names' h h' =>
    relativePath_injective rootPath t h h'⟩
  · obtain ⟨i, hi⟩ := exists_job rootPath t analysis h
    have hputs (i : Fin (findBagDirectories rootPath t.root).length) :
        (jobsOf analysis _ i).puts = processBagDirectory (jobsOf analysis _ i).bagPath
          (analysis (jobsOf analysis _ i).bagPath).summary (analysis (jobsOf analysis _ i).bagPath).error := rfl
    have hlines := printed_of_bag (bagPath_injective rootPath t analysis) hputs hrun hended i isError
    rw [hi] at hlines
    exact hlines
  · obtain ⟨i, hi⟩ := (hinv.ended hended).1.exists_mem hitem
    obtain ⟨names, h, hjob⟩ := job_isBag rootPath t analysis i
    refine ⟨names, h, ?_⟩
    rw [hjob] at hi
    exact (processBagDirectory_lines _ _ _).1 item hi
  · obtain ⟨order, h⟩ := reported_run hrun
    obtain ⟨bags, hnodup, hbags, -, hreports⟩ := reports_bags rootPath t analysis (h.perm hinv hended)
    exact ⟨bags, hnodup, hbags, h.reports.trans hreports⟩

end EndToEnd

def twoBagTree : DirectoryTree where
  root := .node [] (.cons ['b'] (.node ["x.mcap".toList] .nil) (.cons ['a'] (.node ["metadata.yaml".toList] .nil) .nil))
  distinct := by simp [Tree.Distinct, Forest.Distinct, Forest.names]
  valid names files h name hname := by
    rcases names with _ | ⟨first, _ | ⟨second, names⟩⟩
    · cases hname
    · simp only [Tree.label, Forest.label] at h
      split_ifs at h with hb ha
      · rw [List.mem_singleton.mp hname, ← hb]
        exact ⟨by simp, by simp⟩
      · rw [List.mem_singleton.mp hname, ← ha]
        exact ⟨by simp, by simp⟩
    · simp only [Tree.label, Forest.label] at h
      split_ifs at h

/-- Nothing is written about the bags; the second worker breaks down. -/
def twoAnalyses (bagPath : List Char) : Analysis where
  summary := []
  error := none
  failure := if bagPath = ['r', '/', 'b'] then some ['!'] else none

/-- The second worker puts its line while the parent looks at the first. -/
def twoAnalysesRun : List (Event (findBagDirectories ['r'] twoBagTree.root).length) :=
  let first := ⟨0, by decide +kernel⟩
  let second := ⟨1, by decide +kernel⟩
  [.start first, .start second, .put first, .finish first] ++ .replicate 3 .parent ++
    [.put second, .finish second] ++ .replicate 8 .parent

/-- What is printed for the second bag is the line that its worker has written. -/
theorem twoBagTree_analyzed :
    ∃ s, attempt (System.step (jobsOf twoAnalyses (findBagDirectories ['r'] twoBagTree.root))
        (workerCount (findBagDirectories ['r'] twoBagTree.root).length))
        (System.initial (jobsOf twoAnalyses (findBagDirectories ['r'] twoBagTree.root))) twoAnalysesRun = some s ∧
      s.linesOf ['r', '/', 'b'] false = ["Starting analysis: r/b".toList] := by
  have hended : (attempt (System.step (jobsOf twoAnalyses (findBagDirectories ['r'] twoBagTree.root))
      (workerCount (findBagDirectories ['r'] twoBagTree.root).length))
      (System.initial (jobsOf twoAnalyses (findBagDirectories ['r'] twoBagTree.root))) twoAnalysesRun).map
        (·.parent.control) = some .ended := by
    decide +kernel
  obtain ⟨s, hrun, hcontrol⟩ := Option.map_eq_some_iff.mp hended
  obtain ⟨hlines, -⟩ := bags_analyzed ['r'] twoBagTree twoAnalyses twoAnalysesRun s hrun hcontrol
  have hbag : twoBagTree.IsBag [['b']] := by
    rw [← mem_topmost_iff]
    decide +kernel
  refine ⟨s, hrun, (hlines [['b']] hbag false).trans ?_⟩
  decide +kernel

end LogAnalysis
