import Mathlib.Data.Char
import Mathlib.Data.List.Lex
import Mathlib.Data.List.Sort
import RobotFramework.LogAnalysis.ReindexBag
import RobotFramework.NamedTree

/-!
# Finding the bags

`find_bag_directories` walks a directory tree from the root and takes the directories with a bag file;
it keeps out of their subdirectories. A path is a string that the walk makes with `os.path.join`. The
tree has no symbolic links, and the directories can be read.
-/

namespace LogAnalysis

open NamedTree

/-! ## The code -/

/-- A directory with the names of its files and, by name, its subdirectories in the order of
`os.scandir`. -/
abbrev Directory := Tree (List Char) (List (List Char))

/-- `os.path.join`. -/
def join (path name : List Char) : List Char :=
  if name.head? = some '/' then name
  else if path = [] ∨ path.getLast? = some '/' then path ++ name
  else path ++ '/' :: name

def hasMetadata (files : List (List Char)) : Bool := "metadata.yaml".toList ∈ files

def hasMcap (files : List (List Char)) : Bool := files.any endsWithMcap

/-- The body of the loop over `os.walk(root_path)`; it may clear the subdirectories. -/
def findBagsIn (bagDirectories : List (List Char)) (currentPath : List Char)
    (subdirectories : List (List Char)) (files : List (List Char)) :
    List (List Char) × List (List Char) :=
  if hasMetadata files || hasMcap files then (bagDirectories ++ [currentPath], [])
  else (bagDirectories, subdirectories)

def findBagDirectories (rootPath : List Char) (root : Directory) : List (List Char) :=
  (root.walk join findBagsIn [] rootPath).insertionSort (· ≤ ·)

/-! ## Directory trees -/

/-- A name of a directory entry. -/
def ValidName (name : List Char) : Prop := name ≠ [] ∧ '/' ∉ name

/-- A directory tree: the names in one directory differ, and none is empty or contains a slash. -/
structure DirectoryTree where
  root : Directory
  distinct : root.Distinct
  valid : ∀ names files, root.label names = some files → ∀ name ∈ names, ValidName name

/-- The condition of `findBagsIn`. -/
def isBag (files : List (List Char)) : Bool := hasMetadata files || hasMcap files

/-- A file that makes its directory a bag. -/
def isBagFile (name : List Char) : Bool := name = "metadata.yaml".toList || endsWithMcap name

/-- The directory at some names contains a bag file. -/
def DirectoryTree.HasBagFile (t : DirectoryTree) (names : List (List Char)) : Prop :=
  ∃ files, t.root.label names = some files ∧ ∃ file ∈ files, isBagFile file = true

/-- The path of the directory at some names. -/
def pathOf (rootPath : List Char) (names : List (List Char)) : List Char := names.foldl join rootPath

/-! ## Paths -/

/-- What `join` puts before a name. -/
def separator (path : List Char) : List Char :=
  if path = [] ∨ path.getLast? = some '/' then [] else ['/']

theorem join_of_valid (path : List Char) {name : List Char} (h : ValidName name) :
    join path name = path ++ separator path ++ name := by
  have hhead : name.head? ≠ some '/' := fun hslash => h.2 (List.mem_of_head? hslash)
  unfold join separator
  rw [if_neg hhead]
  split_ifs <;> simp

theorem separator_join (path : List Char) {name : List Char} (h : ValidName name) :
    separator (join path name) = ['/'] := by
  rw [join_of_valid path h]
  unfold separator
  apply if_neg
  rintro (hempty | hslash)
  · exact h.1 (List.append_eq_nil_iff.mp hempty).2
  · rw [List.getLast?_append_of_ne_nil _ h.1] at hslash
    exact h.2 (List.mem_of_getLast? hslash)

theorem pathOf_cons (rootPath name : List Char) (names : List (List Char))
    (h : ∀ n ∈ name :: names, ValidName n) :
    pathOf rootPath (name :: names) =
      rootPath ++ separator rootPath ++ ['/'].intercalate (name :: names) := by
  induction names generalizing rootPath name with
  | nil =>
    rw [List.intercalate_singleton]
    exact join_of_valid rootPath (h name List.mem_cons_self)
  | cons next names ih =>
    have hname := h name List.mem_cons_self
    show pathOf (join rootPath name) (next :: names) = _
    rw [ih (join rootPath name) next fun n hn => h n (List.mem_cons_of_mem _ hn),
      separator_join rootPath hname, join_of_valid rootPath hname, List.intercalate_cons_cons]
    simp

theorem pathOf_injective (rootPath : List Char) {names names' : List (List Char)}
    (h : ∀ n ∈ names, ValidName n) (h' : ∀ n ∈ names', ValidName n)
    (heq : pathOf rootPath names = pathOf rootPath names') : names = names' := by
  have hnil {name : List Char} {names : List (List Char)} (h : ∀ n ∈ name :: names, ValidName n) :
      pathOf rootPath (name :: names) ≠ rootPath := by
    intro hroot
    rw [pathOf_cons rootPath name names h, List.append_assoc, List.append_right_eq_self,
      List.append_eq_nil_iff] at hroot
    refine (h name List.mem_cons_self).1 ?_
    cases names with
    | nil => simpa using hroot.2
    | cons next names => simpa [List.intercalate_cons_cons] using hroot.2
  cases names with
  | nil =>
    cases names' with
    | nil => rfl
    | cons name' names' => exact absurd heq.symm (hnil h')
  | cons name names =>
    cases names' with
    | nil => exact absurd heq (hnil h)
    | cons name' names' =>
      rw [pathOf_cons rootPath name names h, pathOf_cons rootPath name' names' h',
        List.append_cancel_left_eq] at heq
      rw [← List.splitOn_intercalate '/' (fun n hn => (h n hn).2) (List.cons_ne_nil name names), heq,
        List.splitOn_intercalate '/' (fun n hn => (h' n hn).2) (List.cons_ne_nil name' names')]

/-! ## The walk -/

theorem findBagsIn_eq_search : findBagsIn = NamedTree.search isBag := rfl

theorem holds_iff_hasBagFile (t : DirectoryTree) (names : List (List Char)) :
    t.root.Holds isBag names ↔ t.HasBagFile names := by
  refine exists_congr fun files => and_congr_right fun _ => ?_
  unfold isBag hasMetadata hasMcap isBagFile
  generalize "metadata.yaml".toList = metadata
  simp [and_or_left, exists_or]

theorem walk_eq_topmost (rootPath : List Char) (root : Directory) :
    root.walk join findBagsIn [] rootPath = (root.topmost isBag).map (pathOf rootPath) := by
  rw [findBagsIn_eq_search, Tree.walk_search]
  rfl

section Found

variable (rootPath : List Char) (t : DirectoryTree)

theorem valid_of_topmost {names : List (List Char)} (h : names ∈ t.root.topmost isBag) :
    ∀ n ∈ names, ValidName n := by
  obtain ⟨⟨files, hfiles, -⟩, -⟩ := (t.root.mem_topmost t.distinct names).mp h
  exact t.valid names files hfiles

theorem mem_findBagDirectories {path : List Char} :
    path ∈ findBagDirectories rootPath t.root ↔
      ∃ names ∈ t.root.topmost isBag, pathOf rootPath names = path := by
  unfold findBagDirectories
  rw [List.mem_insertionSort, walk_eq_topmost, List.mem_map]

theorem pathOf_mem_findBagDirectories {names : List (List Char)} (h : ∀ n ∈ names, ValidName n) :
    pathOf rootPath names ∈ findBagDirectories rootPath t.root ↔ names ∈ t.root.topmost isBag := by
  rw [mem_findBagDirectories]
  constructor
  · rintro ⟨names', hmem, heq⟩
    rwa [← pathOf_injective rootPath (valid_of_topmost t hmem) h heq]
  · exact fun hmem => ⟨names, hmem, rfl⟩

theorem sorted_findBagDirectories : (findBagDirectories rootPath t.root).Pairwise (· < ·) := by
  unfold findBagDirectories
  rw [walk_eq_topmost]
  have hnodup : ((t.root.topmost isBag).map (pathOf rootPath)).Nodup := by
    refine List.Nodup.map_on ?_ (t.root.nodup_topmost t.distinct)
    intro a ha b hb heq
    exact pathOf_injective rootPath (valid_of_topmost t ha) (valid_of_topmost t hb) heq
  have hdistinct := (List.perm_insertionSort (· ≤ ·) _).nodup_iff.mpr hnodup
  refine ((List.pairwise_insertionSort (· ≤ ·) _).and hdistinct).imp ?_
  rintro a b ⟨hle, hne⟩
  exact lt_of_le_of_ne hle hne

end Found

/-- **Bag discovery.** The directories found are those that contain a bag file while no directory above
them does, sorted and without duplicates; so none lies inside another, and every bag file lies in or below
exactly one of them. -/
theorem findBagDirectories_complete (rootPath : List Char) (t : DirectoryTree) :
    (findBagDirectories rootPath t.root).Pairwise (· < ·) ∧
      (∀ path, path ∈ findBagDirectories rootPath t.root ↔
        ∃ names, path = pathOf rootPath names ∧ t.HasBagFile names ∧
          ∀ above, above <+: names → above ≠ names → ¬ t.HasBagFile above) ∧
      (∀ path ∈ findBagDirectories rootPath t.root, ∀ below, (∀ n ∈ below, ValidName n) →
        pathOf path below ∈ findBagDirectories rootPath t.root → below = []) ∧
      ∀ names, t.HasBagFile names →
        ∃! path, path ∈ findBagDirectories rootPath t.root ∧
          ∃ above, above <+: names ∧ path = pathOf rootPath above := by
  refine ⟨sorted_findBagDirectories rootPath t, ?_, ?_, ?_⟩
  · intro path
    simp only [mem_findBagDirectories, t.root.mem_topmost t.distinct, holds_iff_hasBagFile]
    exact exists_congr fun names => ⟨fun h => ⟨h.2.symm, h.1⟩, fun h => ⟨h.2, h.1.symm⟩⟩
  · intro path hpath below hbelow hfound
    obtain ⟨names, hmem, rfl⟩ := (mem_findBagDirectories rootPath t).mp hpath
    have hvalid : ∀ n ∈ names ++ below, ValidName n := by
      intro n hn
      exact (List.mem_append.mp hn).elim (valid_of_topmost t hmem n) (hbelow n)
    have happend : pathOf rootPath (names ++ below) = pathOf (pathOf rootPath names) below :=
      List.foldl_append
    rw [← happend, pathOf_mem_findBagDirectories rootPath t hvalid] at hfound
    have hsame := antichain_topmost t.distinct hmem hfound (List.prefix_append names below)
    exact List.self_eq_append_right.mp hsame
  · intro names hnames
    obtain ⟨top, ⟨hmem, htop⟩, hunique⟩ :=
      existsUnique_topmost t.distinct ((holds_iff_hasBagFile t names).mpr hnames)
    refine ⟨pathOf rootPath top, ⟨?_, top, htop, rfl⟩, ?_⟩
    · exact (mem_findBagDirectories rootPath t).mpr ⟨top, hmem, rfl⟩
    · rintro path ⟨hfound, above, habove, rfl⟩
      obtain ⟨files, hfiles, -⟩ := hnames
      have hvalid : ∀ n ∈ above, ValidName n :=
        fun n hn => t.valid names files hfiles n (habove.subset hn)
      rw [hunique above ⟨(pathOf_mem_findBagDirectories rootPath t hvalid).mp hfound, habove⟩]

/-- A bag inside a bag is not taken. -/
example : findBagDirectories "/logs".toList
    (.node [] (.cons "run".toList (.node ["X.MCAP".toList]
        (.cons "old".toList (.node ["metadata.yaml".toList] .nil) .nil))
      (.cons "a".toList (.node ["metadata.yaml".toList] .nil) .nil))) =
    ["/logs/a".toList, "/logs/run".toList] := by
  decide +kernel

end LogAnalysis
