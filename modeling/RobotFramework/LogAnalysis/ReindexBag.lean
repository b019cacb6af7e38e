import Mathlib.Data.List.AList
import RobotFramework.Python.Value

/-!
# Reindexing a bag

`reindex_bag` moves the files that `ros2 bag reindex` cannot read to a quarantine directory, tries
again, and moves them back whatever happened. A `str` is the list of its characters, and a path in
the bag or in the quarantine directory the list of its names.

The bag directory has no symbolic links, and the quarantine directory lies next to it.
-/

namespace LogAnalysis

open Python

/-! ## Files -/

/-- The names from a directory down to a file. -/
abbrev Path := List (List Char)

-- Membership of a name or a path is decided by comparing characters.
local instance instLawfulBEqName : LawfulBEq (List Char) := inferInstance
local instance instLawfulBEqPath : LawfulBEq Path := inferInstance

abbrev Content := List UInt8

abbrev Files := AList fun _ : Path => Content

/-- The file `ros2 bag reindex` creates. -/
def metadataFile : Path := ["metadata.yaml".toList]

/-- What the code finds around it: the real path of the bag, what the directory part of a path leads
to, and which operations on files fail. -/
structure Environment where
  bagRealpath : Path
  directory : List Char → Path
  mkdtempFails : Bool
  moveFails : Path → Bool
  restoreFails : Path → Bool

/-- The last name of a path. -/
def basename (path : List Char) : List Char := (path.reverse.takeWhile (· ≠ '/')).reverse

/-- A path up to its last slash. -/
def dirname (path : List Char) : List Char := (path.reverse.dropWhile (· ≠ '/')).reverse

/-- `os.path.realpath`, for a path whose last name is not a symbolic link. -/
def Environment.realpath (env : Environment) (path : List Char) : Except PyError Path :=
  if '\x00' ∈ path then .error .valueError
  else if basename path ∈ [[], ['.'], ['.', '.']] then .ok (env.directory path)
  else .ok (env.directory (dirname path) ++ [basename path])

/-- `os.path.relpath(file_realpath, bag_realpath)`, unless the file is outside of the bag. -/
def relpath (fileRealpath bagRealpath : Path) : Option Path :=
  if bagRealpath <+: fileRealpath then some (fileRealpath.drop bagRealpath.length) else none

/-! ## The message about an unreadable file -/

/-- A character as a lower-case pattern character matches it under `re.IGNORECASE`. -/
def ignoreCase (c : Char) : Char :=
  if c = 'İ' ∨ c = 'ı' then 'i' else if c = 'ſ' then 's' else c.toLower

/-- The text matches a lower-case literal under `re.IGNORECASE`. -/
def matchesText (literal text : List Char) : Bool := text.map ignoreCase == literal

/-- What follows a literal at the start of a text. -/
def dropLiteral (literal text : List Char) : Option (List Char) :=
  if matchesText literal (text.take literal.length) then some (text.drop literal.length) else none

def containsLiteral (literal : List Char) : List Char → Bool
  | [] => (dropLiteral literal []).isSome
  | c :: text => (dropLiteral literal (c :: text)).isSome || containsLiteral literal text

/-- `['"]` of the pattern. -/
def isQuote (c : Char) : Bool := c = '\'' ∨ c = '"'

/-- `[^'"]+\.mcap`, on a text without quotes. -/
def isMcapPath (path : List Char) : Bool :=
  matchesText ".mcap".toList (path.drop (path.length - 5)) && 5 < path.length

/-- Group 1 of a match of `Could not open ['"]([^'"]+\.mcap)['"].*?file too small` at the start of a
text: the first group ends at the next quote. -/
def matchHere (text : List Char) : Option (List Char) :=
  match dropLiteral "could not open ".toList text with
  | some (quote :: rest) =>
    let path := rest.takeWhile (!isQuote ·)
    if isQuote quote && isMcapPath path && rest.length > path.length &&
        containsLiteral "file too small".toList (rest.drop (path.length + 1)) then some path
    else none
  | _ => none

/-- `re.search(...)` and `match.group(1)`. -/
def search : List Char → Option (List Char)
  | [] => none
  | c :: text => (matchHere (c :: text)).or (search text)

/-! ## The code -/

/-- How a run of `ros2 bag reindex` ends; it may have created `metadata.yaml` with some content. -/
inductive Outcome where
  | completed (created : Option Content) (returncode : Int) (stdout stderr : List Char)
  | fileNotFound
  | timeoutExpired (created : Option Content)
  | raised (created : Option Content) (error : PyError)

/-- The content of the `metadata.yaml` that a run creates if there is none. -/
def Outcome.created : Outcome → Option Content
  | .completed created _ _ _ => created
  | .fileNotFound => none
  | .timeoutExpired created => created
  | .raised created _ => created

/-- The files of the bag, its directories, the files of the quarantine directory once there is one,
and `quarantined_files`. -/
structure State where
  bag : Files
  directories : List Path
  quarantine : Option Files
  quarantinedFiles : List Path

/-- `os.path.exists(metadata_file)`. -/
def State.metadataExists (s : State) : Bool :=
  (s.bag.lookup metadataFile).isSome || metadataFile ∈ s.directories

/-- The state after a run of `ros2 bag reindex`. -/
def State.reindexed (s : State) (outcome : Outcome) : State :=
  match outcome.created with
  | some content =>
    if s.metadataExists then s else { s with bag := s.bag.insert metadataFile content }
  | none => s

/-- `shutil.move(file_realpath, quarantined_path)` and what follows it. -/
def State.moveAway (s : State) (relativePath : Path) (content : Content) (quarantine : Files) : State :=
  { s with
    bag := s.bag.erase relativePath
    quarantine := some (quarantine.insert relativePath content)
    quarantinedFiles := s.quarantinedFiles ++ [relativePath] }

/-- `quarantine_file`, after `os.path.realpath`. -/
def quarantineFile (env : Environment) (fileRealpath : Path) (s : State) :
    Except PyError Bool × State :=
  match relpath fileRealpath env.bagRealpath with
  | none => (.ok false, s)
  | some relativePath =>
    match s.bag.lookup relativePath with
    | none => (.ok false, s)
    | some content =>
      if s.quarantine = none ∧ env.mkdtempFails then (.error .osError, s)
      else
        let quarantine := s.quarantine.getD ∅
        if env.moveFails relativePath then (.error .osError, { s with quarantine := some quarantine })
        else (.ok true, s.moveAway relativePath content quarantine)

/-- `entry.name.lower().endswith(".mcap")`. -/
def endsWithMcap (name : List Char) : Bool := ".mcap".toList.isSuffixOf (name.map Char.toLower)

/-- The loop over `os.scandir(bag_realpath)`; it stops at a file that is not moved. -/
def scanEmpty (env : Environment) : List (Sigma fun _ : Path => Content) → State →
    Except PyError Bool × State
  | [], s => (.ok true, s)
  | ⟨[name], content⟩ :: entries, s =>
    if endsWithMcap name ∧ content = [] then
      match quarantineFile env (env.bagRealpath ++ [name]) s with
      | (.ok true, s) => scanEmpty env entries s
      | stopped => stopped
    else scanEmpty env entries s
  | _ :: entries, s => scanEmpty env entries s

/-- The `while` loop, with how each run of `ros2 bag reindex` ends: the value of `success` after it,
or `none` if it is still running. -/
def reindexLoop (env : Environment) : List Outcome → State → Option (Except PyError Bool × State)
  | [], _ => none
  | outcome :: outcomes, s =>
    let s := s.reindexed outcome
    match outcome with
    | .fileNotFound => some (.ok false, s)
    | .timeoutExpired _ => some (.ok false, s)
    | .raised _ error => some (.error error, s)
    | .completed _ returncode stdout stderr =>
      match search (stdout ++ '\n' :: stderr) with
      | some path =>
        match env.realpath path with
        | .error error => some (.error error, s)
        | .ok fileRealpath =>
          match quarantineFile env fileRealpath s with
          | (.ok true, s) => reindexLoop env outcomes s
          | stopped => some stopped
      | none => some (.ok (returncode = 0 && s.metadataExists), s)

/-- The body of the `try` statement. -/
def tryBlock (env : Environment) (outcomes : List Outcome) (s : State) :
    Option (Except PyError Bool × State) :=
  match scanEmpty env s.bag.entries s with
  | (.ok true, s) => reindexLoop env outcomes s
  | stopped => some stopped

/-- One restore: the files of the bag and of the quarantine directory, and `restore_ok`. -/
def restoreFile (env : Environment) (s : Files × Files × Bool) (path : Path) : Files × Files × Bool :=
  match s.2.1.lookup path with
  | none => (s.1, s.2.1, false)
  | some content =>
    if env.restoreFails path then (s.1, s.2.1, false)
    else (s.1.insert path content, s.2.1.erase path, s.2.2)

/-- The `finally` block: the state after it and `restore_ok`. -/
def finallyBlock (env : Environment) (s : State) : State × Bool :=
  let (bag, quarantine, restoreOk) :=
    s.quarantinedFiles.reverse.foldl (restoreFile env) (s.bag, s.quarantine.getD ∅, true)
  ({ s with
      bag := bag
      quarantine := if restoreOk then none else s.quarantine.map fun _ => quarantine }, restoreOk)

/-- `reindex_bag`: what it returns or raises, and the files it leaves. -/
def reindexBag (env : Environment) (outcomes : List Outcome) (bag : Files) (directories : List Path) :
    Option (Except PyError Bool × State) :=
  (tryBlock env outcomes ⟨bag, directories, none, []⟩).map fun (success, s) =>
    let (s, restoreOk) := finallyBlock env s
    (success.map (· && restoreOk), s)

end LogAnalysis
