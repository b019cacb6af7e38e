import Mathlib.Data.List.Count
import RobotFramework.Iteration
import RobotFramework.LogAnalysis.ReindexBag

/-!
# No file of a bag is lost

While `reindex_bag` runs, every file of the bag is at its place or, if it has been moved away, at its
place in the quarantine directory (`Held`). Only `.mcap` files are moved, so the `metadata.yaml` that
the command creates never takes the place of one of them.
-/

namespace LogAnalysis

open Python

variable {env : Environment} {bag : Files} {s : State}

/-! ## Which paths are moved -/

theorem relpath_append (bagRealpath rest : Path) :
    relpath (bagRealpath ++ rest) bagRealpath = some rest := by
  unfold relpath
  rw [if_pos (List.prefix_append bagRealpath rest), List.drop_left]

theorem endsWithMcap_ne {name : List Char} (h : endsWithMcap name = true) : [name] ≠ metadataFile := by
  intro he
  rw [List.singleton_inj.mp he] at h
  revert h
  decide

theorem isMcapPath_of_search {text path : List Char} (h : search text = some path) :
    isMcapPath path = true := by
  induction text with
  | nil => simp [search] at h
  | cons c text ih =>
    unfold search at h
    rcases Option.or_eq_some_iff.mp h with hhere | ⟨_, hlater⟩
    · unfold matchHere at hhere
      split at hhere
      · dsimp only at hhere
        split_ifs at hhere with hmatch
        obtain rfl := Option.some.inj hhere
        simp only [Bool.and_eq_true] at hmatch
        exact hmatch.1.1.2
      · simp at hhere
    · exact ih hlater

theorem split_of_isMcapPath {path : List Char} (h : isMcapPath path = true) :
    ∃ stem extension, path = stem ++ extension ∧ extension.map ignoreCase = ".mcap".toList := by
  unfold isMcapPath matchesText at h
  rw [Bool.and_eq_true, beq_iff_eq] at h
  exact ⟨_, _, (List.take_append_drop (path.length - 5) path).symm, h.1⟩

theorem basename_of_isMcapPath {path : List Char} (h : isMcapPath path = true) :
    ∃ stem extension, basename path = stem ++ extension ∧
      extension.map ignoreCase = ".mcap".toList := by
  obtain ⟨stem, extension, rfl, hext⟩ := split_of_isMcapPath h
  have hslash : ∀ c ∈ extension.reverse, (decide (c ≠ '/')) = true := by
    intro c hc
    have hmem : ignoreCase c ∈ ".mcap".toList := by
      rw [← hext]
      exact List.mem_map_of_mem (List.mem_reverse.mp hc)
    rw [decide_eq_true_iff]
    rintro rfl
    revert hmem
    decide
  refine ⟨(stem.reverse.takeWhile (· ≠ '/')).reverse, extension, ?_, hext⟩
  unfold basename
  rw [List.reverse_append, List.takeWhile_append_of_pos hslash, List.reverse_append,
    List.reverse_reverse]

theorem reported_ne_metadata {text path : List Char} {fileRealpath relativePath : Path}
    (hsearch : search text = some path) (hreal : env.realpath path = .ok fileRealpath)
    (hrel : relpath fileRealpath env.bagRealpath = some relativePath) :
    relativePath ≠ metadataFile := by
  obtain ⟨stem, extension, hbase, hext⟩ := basename_of_isMcapPath (isMcapPath_of_search hsearch)
  have hlen : extension.length = 5 := by
    rw [← List.length_map ignoreCase, hext]
    rfl
  have hname : fileRealpath = env.directory (dirname path) ++ [stem ++ extension] := by
    unfold Environment.realpath at hreal
    rw [hbase] at hreal
    split_ifs at hreal with _ hdots
    · have hshort : (stem ++ extension).length ≤ 2 := by
        rcases List.mem_cons.mp hdots with h | h
        · rw [h]
          decide
        · rcases List.mem_pair.mp h with h | h <;> (rw [h]; decide)
      rw [List.length_append, hlen] at hshort
      omega
    · exact (Except.ok.inj hreal).symm
  rintro rfl
  have hlast : metadataFile.getLast? = fileRealpath.getLast? := by
    unfold relpath at hrel
    split_ifs at hrel with hprefix
    obtain hdrop := Option.some.inj hrel
    rw [← hdrop, List.getLast?_drop, if_neg]
    intro hle
    rw [List.drop_of_length_le hle] at hdrop
    exact absurd hdrop (by decide)
  rw [hname, List.getLast?_append] at hlast
  have hmetadata : "metadata.yaml".toList = stem ++ extension := Option.some.inj hlast
  have hstem : stem.length = 8 := by
    have hlength := congrArg List.length hmetadata
    rw [List.length_append, hlen] at hlength
    have : "metadata.yaml".toList.length = 13 := by decide
    omega
  have hyaml : extension = ".yaml".toList := by
    have hdrop : (stem ++ extension).drop stem.length = extension := List.drop_left
    rw [← hdrop, ← hmetadata, hstem]
    decide
  rw [hyaml] at hext
  revert hext
  decide

/-! ## Where the files are -/

/-- The files in the quarantine directory; none while there is no such directory. -/
def State.inQuarantine (s : State) : Files := s.quarantine.getD ∅

/-- Every file of the bag is at its place, or in the quarantine directory if it has been moved. -/
structure Held (bag : Files) (s : State) : Prop where
  held : ∀ p c, bag.lookup p = some c →
    s.bag.lookup p = some c ∧ p ∉ s.quarantinedFiles ∨
      s.inQuarantine.lookup p = some c ∧ p ∈ s.quarantinedFiles
  moved : ∀ p ∈ s.quarantinedFiles, s.bag.lookup p = none ∧ (s.inQuarantine.lookup p).isSome
  nodup : s.quarantinedFiles.Nodup
  metadata : metadataFile ∉ s.quarantinedFiles

theorem Held.initial (bag : Files) (directories : List Path) : Held bag ⟨bag, directories, none, []⟩ :=
  ⟨fun _ _ h => Or.inl ⟨h, List.not_mem_nil⟩, fun _ h => absurd h List.not_mem_nil, List.nodup_nil,
    List.not_mem_nil⟩

/-- The command creates `metadata.yaml` only where there is none. -/
theorem Held.reindexed (h : Held bag s) (outcome : Outcome) : Held bag (s.reindexed outcome) := by
  unfold State.reindexed
  split
  · rename_i content _
    split_ifs with hexists
    · exact h
    · have hnone : s.bag.lookup metadataFile = none := by
        rw [Bool.not_eq_true, State.metadataExists, Bool.or_eq_false_iff] at hexists
        simpa using hexists.1
      refine ⟨fun p c hp => ?_, fun p hp => ?_, h.nodup, h.metadata⟩
      · rcases h.held p c hp with ⟨hbag, hmoved⟩ | hquarantine
        · have hne : p ≠ metadataFile := by
            rintro rfl
            simp [hnone] at hbag
          exact Or.inl ⟨(AList.lookup_insert_ne hne).trans hbag, hmoved⟩
        · exact Or.inr hquarantine
      · have hne : p ≠ metadataFile := by
          rintro rfl
          exact h.metadata hp
        obtain ⟨hbag, hquarantine⟩ := h.moved p hp
        exact ⟨(AList.lookup_insert_ne hne).trans hbag, hquarantine⟩
  · exact h

theorem Held.moveAway (h : Held bag s) {path : Path} {content : Content}
    (hpath : s.bag.lookup path = some content) (hmetadata : path ≠ metadataFile) :
    Held bag (s.moveAway path content s.inQuarantine) := by
  have hnew : path ∉ s.quarantinedFiles := by
    intro hmem
    have hnone := (h.moved path hmem).1
    simp [hnone] at hpath
  refine ⟨fun p c hp => ?_, fun p hp => ?_, ?_, ?_⟩
  · by_cases hpp : p = path
    · subst hpp
      have hc : s.bag.lookup p = some c := by
        rcases h.held p c hp with hbag | hquarantine
        · exact hbag.1
        · exact absurd hquarantine.2 hnew
      obtain rfl : content = c := Option.some.inj (hpath.symm.trans hc)
      exact Or.inr ⟨AList.lookup_insert _, List.mem_append_right _ List.mem_cons_self⟩
    · rcases h.held p c hp with ⟨hbag, hmoved⟩ | ⟨hquarantine, hmoved⟩
      · refine Or.inl ⟨(AList.lookup_erase_ne hpp).trans hbag, ?_⟩
        simp [State.moveAway, hmoved, hpp]
      · exact Or.inr ⟨(AList.lookup_insert_ne hpp).trans hquarantine, List.mem_append_left _ hmoved⟩
  · by_cases hpp : p = path
    · subst hpp
      refine ⟨AList.lookup_erase _ _, ?_⟩
      show ((s.inQuarantine.insert p content).lookup p).isSome
      rw [AList.lookup_insert]
      rfl
    · have hmoved : p ∈ s.quarantinedFiles := by
        simpa [State.moveAway, hpp] using hp
      obtain ⟨hbag, hquarantine⟩ := h.moved p hmoved
      refine ⟨(AList.lookup_erase_ne hpp).trans hbag, ?_⟩
      show ((s.inQuarantine.insert path content).lookup p).isSome
      rw [AList.lookup_insert_ne hpp]
      exact hquarantine
  · exact List.nodup_append.mpr ⟨h.nodup, List.nodup_singleton path, fun a ha b hb => by
      rintro rfl
      exact hnew (List.mem_singleton.mp hb ▸ ha)⟩
  · have hne : metadataFile ≠ path := Ne.symm hmetadata
    simp [State.moveAway, h.metadata, hne]

/-! ## The measure of the loop -/

/-- The files that may still be moved. -/
def State.movable (s : State) : Nat := s.bag.keys.countP (· ≠ metadataFile)

theorem movable_reindexed (s : State) (outcome : Outcome) :
    (s.reindexed outcome).movable = s.movable := by
  unfold State.reindexed
  split
  · split_ifs
    · rfl
    · unfold State.movable
      rw [AList.keys_insert, List.countP_cons_of_neg (by simp),
        @List.countP_erase _ instBEqOfDecidableEq inferInstance _ _ _]
      simp
  · rfl

theorem movable_moveAway {path : Path} {content : Content} (hpath : s.bag.lookup path = some content)
    (hmetadata : path ≠ metadataFile) (quarantine : Files) :
    (s.moveAway path content quarantine).movable < s.movable := by
  have hmem : path ∈ s.bag.keys := AList.mem_keys.mp (AList.lookup_isSome.mp (by simp [hpath]))
  have hpos : 0 < s.bag.keys.countP (· ≠ metadataFile) :=
    List.countP_pos_iff.mpr ⟨path, hmem, by simpa using hmetadata⟩
  show (s.bag.erase path).keys.countP (· ≠ metadataFile) < s.bag.keys.countP (· ≠ metadataFile)
  rw [AList.keys_erase, @List.countP_erase _ instBEqOfDecidableEq inferInstance _ _ _,
    if_pos ⟨hmem, by simpa using hmetadata⟩]
  omega

/-! ## The code keeps the files -/

theorem quarantineFile_spec (h : Held bag s) {fileRealpath : Path}
    (hne : ∀ relativePath, relpath fileRealpath env.bagRealpath = some relativePath →
      relativePath ≠ metadataFile) :
    Held bag (quarantineFile env fileRealpath s).2 ∧
      (quarantineFile env fileRealpath s).2.movable ≤ s.movable ∧
      ((quarantineFile env fileRealpath s).1 = .ok true →
        (quarantineFile env fileRealpath s).2.movable < s.movable) := by
  unfold quarantineFile
  cases hrel : relpath fileRealpath env.bagRealpath with
  | none => exact ⟨h, le_refl _, fun hr => absurd (Except.ok.inj hr) (by decide)⟩
  | some relativePath =>
    dsimp only
    cases hfile : s.bag.lookup relativePath with
    | none => exact ⟨h, le_refl _, fun hr => absurd (Except.ok.inj hr) (by decide)⟩
    | some content =>
      dsimp only
      split_ifs with hmkdtemp hmove
      · exact ⟨h, le_refl _, fun hr => absurd hr (by simp)⟩
      · exact ⟨⟨h.held, h.moved, h.nodup, h.metadata⟩, le_refl _, fun hr => absurd hr (by simp)⟩
      · have hless := movable_moveAway hfile (hne relativePath hrel) s.inQuarantine
        exact ⟨h.moveAway hfile (hne relativePath hrel), hless.le, fun _ => hless⟩

theorem entry_ne_metadata (env : Environment) {name : List Char} (h : endsWithMcap name = true)
    (relativePath : Path)
    (hrel : relpath (env.bagRealpath ++ [name]) env.bagRealpath = some relativePath) :
    relativePath ≠ metadataFile := by
  rw [relpath_append] at hrel
  rw [← Option.some.inj hrel]
  exact endsWithMcap_ne h

theorem scanEmpty_spec (env : Environment) (entries : List (Sigma fun _ : Path => Content))
    (h : Held bag s) :
    Held bag (scanEmpty env entries s).2 ∧ (scanEmpty env entries s).2.movable ≤ s.movable := by
  fun_induction scanEmpty env entries s with
  | case1 => exact ⟨h, le_refl _⟩
  | case2 name content entries s hempty s' hmoved ih =>
    obtain ⟨hheld, hle, _⟩ := quarantineFile_spec h (entry_ne_metadata env hempty.1)
    rw [hmoved] at hheld hle
    obtain ⟨hheld', hle'⟩ := ih hheld
    exact ⟨hheld', hle'.trans hle⟩
  | case3 name content entries s hempty _ =>
    obtain ⟨hheld, hle, _⟩ := quarantineFile_spec h (entry_ne_metadata env hempty.1)
    exact ⟨hheld, hle⟩
  | case4 _ _ _ _ _ ih => exact ih h
  | case5 _ _ _ _ ih => exact ih h

/-- One turn of the loop: it ends the loop, or goes on. -/
def reindexTurn (env : Environment) (s : State) (outcome : Outcome) :
    (Except PyError Bool × State) ⊕ State :=
  let s := s.reindexed outcome
  match outcome with
  | .fileNotFound => .inl (.ok false, s)
  | .timeoutExpired _ => .inl (.ok false, s)
  | .raised _ error => .inl (.error error, s)
  | .completed _ returncode stdout stderr =>
    match search (stdout ++ '\n' :: stderr) with
    | some path =>
      match env.realpath path with
      | .error error => .inl (.error error, s)
      | .ok fileRealpath =>
        match quarantineFile env fileRealpath s with
        | (.ok true, s) => .inr s
        | stopped => .inl stopped
    | none => .inl (.ok (returncode = 0 && s.metadataExists), s)

theorem reindexLoop_eq_run (env : Environment) (outcomes : List Outcome) (s : State) :
    reindexLoop env outcomes s = Iteration.run (reindexTurn env) outcomes s := by
  induction outcomes generalizing s with
  | nil => rfl
  | cons outcome outcomes ih =>
    rw [reindexLoop.eq_def, Iteration.run, reindexTurn.eq_def]
    dsimp only
    cases outcome with
    | fileNotFound | timeoutExpired | raised => rfl
    | completed created returncode stdout stderr =>
      dsimp only
      cases search (stdout ++ '\n' :: stderr) with
      | none => rfl
      | some path =>
        dsimp only
        cases env.realpath path with
        | error error => rfl
        | ok fileRealpath =>
          dsimp only
          rcases quarantineFile env fileRealpath _ with ⟨error | moved, s'⟩
          · rfl
          · cases moved with
            | false => rfl
            | true => exact ih s'

theorem reindexTurn_cases (env : Environment) (h : Held bag s) (outcome : Outcome) :
    (∃ success s', reindexTurn env s outcome = .inl (success, s') ∧ Held bag s' ∧
        (success = .ok true → s'.metadataExists = true)) ∨
    (∃ s', reindexTurn env s outcome = .inr s' ∧ Held bag s' ∧ s'.movable < s.movable) := by
  have hreindexed := h.reindexed outcome
  have hmovable := movable_reindexed s outcome
  unfold reindexTurn
  cases outcome with
  | fileNotFound =>
    exact Or.inl ⟨_, _, rfl, hreindexed, fun hr => absurd (Except.ok.inj hr) (by decide)⟩
  | timeoutExpired created =>
    exact Or.inl ⟨_, _, rfl, hreindexed, fun hr => absurd (Except.ok.inj hr) (by decide)⟩
  | raised created error => exact Or.inl ⟨_, _, rfl, hreindexed, fun hr => absurd hr (by simp)⟩
  | completed created returncode stdout stderr =>
    dsimp only
    cases hsearch : search (stdout ++ '\n' :: stderr) with
    | none =>
      refine Or.inl ⟨_, _, rfl, hreindexed, fun hr => ?_⟩
      have hboth := Except.ok.inj hr
      rw [Bool.and_eq_true] at hboth
      exact hboth.2
    | some path =>
      dsimp only
      cases hreal : env.realpath path with
      | error error => exact Or.inl ⟨_, _, rfl, hreindexed, fun hr => absurd hr (by simp)⟩
      | ok fileRealpath =>
        dsimp only
        obtain ⟨hheld, _, hless⟩ := quarantineFile_spec hreindexed
          fun relativePath hrel => reported_ne_metadata hsearch hreal hrel
        rw [hmovable] at hless
        split
        · rename_i s' hmoved
          rw [hmoved] at hheld hless
          exact Or.inr ⟨s', rfl, hheld, hless rfl⟩
        · rename_i hstopped
          exact Or.inl ⟨_, _, rfl, hheld, fun hr => (hstopped _ (Prod.ext hr rfl)).elim⟩

/-- What a turn that goes on keeps, and that it leaves fewer files to be moved. -/
theorem reindexTurn_variant (env : Environment) (bag : Files) (outcomes : List Outcome) :
    Iteration.Variant (reindexTurn env) outcomes (Held bag) State.movable := by
  refine ⟨fun outcome _ s t h hturn => ?_⟩
  rcases reindexTurn_cases env h outcome with ⟨success, s', hends, _⟩ | ⟨s', hagain, hheld, hless⟩
  · rw [hends] at hturn
    cases hturn
  · obtain rfl := Sum.inr.inj (hagain.symm.trans hturn)
    exact ⟨hheld, hless⟩

theorem reindexLoop_spec (outcomes : List Outcome) (h : Held bag s) {success : Except PyError Bool}
    {s' : State} (hloop : reindexLoop env outcomes s = some (success, s')) :
    Held bag s' ∧ (success = .ok true → s'.metadataExists = true) := by
  rw [reindexLoop_eq_run] at hloop
  have hagain := (reindexTurn_variant env bag outcomes).again
  refine Iteration.run_spec
    (Q := fun r => Held bag r.2 ∧ (r.1 = .ok true → r.2.metadataExists = true))
    (fun outcome ho s t hs hturn => (hagain outcome ho s t hs hturn).1) ?_ h hloop
  intro outcome _ s r hs hturn
  rcases reindexTurn_cases env hs outcome with ⟨success, s', hends, hheld, hexists⟩ | ⟨s', hmoved, _⟩
  · obtain rfl := Sum.inl.inj (hends.symm.trans hturn)
    exact ⟨hheld, hexists⟩
  · rw [hmoved] at hturn
    cases hturn

/-- The loop ends: every further turn needs another file. -/
theorem reindexLoop_isSome (outcomes : List Outcome) (h : Held bag s)
    (hlong : s.movable < outcomes.length) : (reindexLoop env outcomes s).isSome := by
  rw [reindexLoop_eq_run]
  exact (reindexTurn_variant env bag outcomes).run_isSome h hlong

theorem tryBlock_spec (outcomes : List Outcome) (h : Held bag s) {success : Except PyError Bool}
    {s' : State} (htry : tryBlock env outcomes s = some (success, s')) :
    Held bag s' ∧ (success = .ok true → s'.metadataExists = true) := by
  obtain ⟨hheld, _⟩ := scanEmpty_spec env s.bag.entries h
  unfold tryBlock at htry
  split at htry
  · rename_i s₁ hscan
    rw [hscan] at hheld
    exact reindexLoop_spec outcomes hheld htry
  · rename_i hstopped
    have hresult := Option.some.inj htry
    rw [hresult] at hheld hstopped
    exact ⟨hheld, fun hr => (hstopped s' (by rw [hr])).elim⟩

theorem tryBlock_isSome (outcomes : List Outcome) (h : Held bag s)
    (hlong : s.movable < outcomes.length) : (tryBlock env outcomes s).isSome := by
  obtain ⟨hheld, hle⟩ := scanEmpty_spec env s.bag.entries h
  unfold tryBlock
  split
  · rename_i s₁ hscan
    rw [hscan] at hheld hle
    exact reindexLoop_isSome outcomes hheld (lt_of_le_of_lt hle hlong)
  · rfl

/-! ## Restoring -/

/-- What restoring some files leaves of the bag and of the quarantine directory. -/
structure Restored (env : Environment) (paths : List Path) (before after : Files × Files × Bool) :
    Prop where
  other : ∀ p, p ∉ paths →
    after.1.lookup p = before.1.lookup p ∧ after.2.1.lookup p = before.2.1.lookup p
  restored : ∀ p ∈ paths, env.restoreFails p = false → after.1.lookup p = before.2.1.lookup p
  failed : ∀ p ∈ paths, env.restoreFails p = true → after.2.1.lookup p = before.2.1.lookup p
  ok : after.2.2 = true ↔ before.2.2 = true ∧ ∀ p ∈ paths, env.restoreFails p = false

theorem Restored.cons_failed {path : Path} {paths : List Path} {quarantine : Files} {restoreOk : Bool}
    {after : Files × Files × Bool} (h : Restored env paths (bag, quarantine, false) after)
    (hnew : path ∉ paths) (hfails : env.restoreFails path = true) :
    Restored env (path :: paths) (bag, quarantine, restoreOk) after := by
  refine ⟨fun p hp => h.other p (fun hmem => hp (List.mem_cons_of_mem path hmem)), ?_, ?_, ?_⟩
  · intro p hp hok
    rcases List.mem_cons.mp hp with rfl | hp
    · simp [hfails] at hok
    · exact h.restored p hp hok
  · intro p hp hfails
    rcases List.mem_cons.mp hp with rfl | hp
    · exact (h.other p hnew).2
    · exact h.failed p hp hfails
  · simp [h.ok, hfails]

theorem Restored.cons_restored {path : Path} {paths : List Path} {quarantine : Files} {restoreOk : Bool}
    {after : Files × Files × Bool} {content : Content}
    (h : Restored env paths (bag.insert path content, quarantine.erase path, restoreOk) after)
    (hnew : path ∉ paths) (hfails : env.restoreFails path = false)
    (hfile : quarantine.lookup path = some content) :
    Restored env (path :: paths) (bag, quarantine, restoreOk) after := by
  have hne : ∀ p ∈ paths, p ≠ path := by
    rintro p hp rfl
    exact hnew hp
  refine ⟨?_, ?_, ?_, ?_⟩
  · intro p hp
    obtain ⟨hpath, hpaths⟩ := not_or.mp (fun hor => hp (List.mem_cons.mpr hor))
    obtain ⟨hbag, hquarantine⟩ := h.other p hpaths
    exact ⟨hbag.trans (AList.lookup_insert_ne hpath), hquarantine.trans (AList.lookup_erase_ne hpath)⟩
  · intro p hp hok
    rcases List.mem_cons.mp hp with rfl | hp
    · rw [(h.other p hnew).1, hfile]
      exact AList.lookup_insert _
    · exact (h.restored p hp hok).trans (AList.lookup_erase_ne (hne p hp))
  · intro p hp hfail
    rcases List.mem_cons.mp hp with rfl | hp
    · simp [hfails] at hfail
    · exact (h.failed p hp hfail).trans (AList.lookup_erase_ne (hne p hp))
  · simp [h.ok, hfails]

theorem restored_foldl (env : Environment) (paths : List Path) (hnodup : paths.Nodup)
    (bag quarantine : Files) (restoreOk : Bool) (hfiles : ∀ p ∈ paths, (quarantine.lookup p).isSome) :
    Restored env paths (bag, quarantine, restoreOk)
      (paths.foldl (restoreFile env) (bag, quarantine, restoreOk)) := by
  induction paths generalizing bag quarantine restoreOk with
  | nil => exact ⟨fun _ _ => ⟨rfl, rfl⟩, by simp, by simp, by simp⟩
  | cons path paths ih =>
    obtain ⟨hnew, hnodup⟩ := List.nodup_cons.mp hnodup
    obtain ⟨content, hfile⟩ := Option.isSome_iff_exists.mp (hfiles path List.mem_cons_self)
    rw [List.foldl_cons]
    unfold restoreFile
    dsimp only
    rw [hfile]
    dsimp only
    split_ifs with hfails
    · have hrest := ih hnodup bag quarantine false
        fun p hp => hfiles p (List.mem_cons_of_mem path hp)
      exact hrest.cons_failed hnew hfails
    · refine (ih hnodup _ _ restoreOk fun p hp => ?_).cons_restored hnew (by simpa using hfails) hfile
      have hne : p ≠ path := by
        rintro rfl
        exact hnew hp
      rw [AList.lookup_erase_ne hne]
      exact hfiles p (List.mem_cons_of_mem path hp)

/-! ## The whole function -/

/-- Where the files of a bag are when `reindex_bag` is over: at their places or, if the restore of one
failed, at its place in the quarantine directory, which is deleted only if all are at their places. -/
structure Kept (env : Environment) (bag : Files) (result : Except PyError Bool) (final : State) :
    Prop where
  held : ∀ p c, bag.lookup p = some c → final.bag.lookup p = some c ∨
    env.restoreFails p = true ∧
      ∃ quarantine, final.quarantine = some quarantine ∧ quarantine.lookup p = some c
  deleted : final.quarantine = none → ∀ p c, bag.lookup p = some c → final.bag.lookup p = some c
  succeeded : result = .ok true →
    (∀ p c, bag.lookup p = some c → final.bag.lookup p = some c) ∧ final.metadataExists = true

/-- Restoring the files that were moved puts each at its place or leaves it in quarantine. -/
theorem Held.restored (h : Held bag s) {after : Files × Files × Bool}
    (hrestored : Restored env s.quarantinedFiles.reverse (s.bag, s.inQuarantine, true) after)
    {p : Path} {c : Content} (hp : bag.lookup p = some c) : after.1.lookup p = some c ∨
      env.restoreFails p = true ∧ after.2.2 = false ∧ s.quarantine.isSome = true ∧
        after.2.1.lookup p = some c := by
  rcases h.held p c hp with ⟨hbag, hmoved⟩ | ⟨hquarantine, hmoved⟩
  · exact Or.inl ((hrestored.other p (by simpa using hmoved)).1.trans hbag)
  · have hmem : p ∈ s.quarantinedFiles.reverse := List.mem_reverse.mpr hmoved
    by_cases hfails : env.restoreFails p = true
    · refine Or.inr ⟨hfails, ?_, ?_, (hrestored.failed p hmem hfails).trans hquarantine⟩
      · by_contra hok
        have hall := (hrestored.ok.mp (by simpa using hok)).2 p hmem
        simp [hfails] at hall
      · by_contra hnone
        simp [State.inQuarantine, Option.not_isSome_iff_eq_none.mp hnone] at hquarantine
    · exact Or.inl ((hrestored.restored p hmem (by simpa using hfails)).trans hquarantine)

theorem Held.finallyBlock (h : Held bag s) (env : Environment) {success : Except PyError Bool}
    (hexists : success = .ok true → s.metadataExists = true) :
    Kept env bag (success.map (· && (finallyBlock env s).2)) (finallyBlock env s).1 := by
  have hrestored := restored_foldl env s.quarantinedFiles.reverse (List.nodup_reverse.mpr h.nodup) s.bag
    s.inQuarantine true fun p hp => (h.moved p (List.mem_reverse.mp hp)).2
  set after := s.quarantinedFiles.reverse.foldl (restoreFile env) (s.bag, s.inQuarantine, true)
  have hfinal : LogAnalysis.finallyBlock env s =
      ({ s with bag := after.1
                quarantine := if after.2.2 then none else s.quarantine.map fun _ => after.2.1 },
        after.2.2) := rfl
  rw [hfinal]
  have hheld : ∀ p c, bag.lookup p = some c → after.1.lookup p = some c ∨
      env.restoreFails p = true ∧ ∃ quarantine,
        (if after.2.2 then none else s.quarantine.map fun _ => after.2.1) = some quarantine ∧
          quarantine.lookup p = some c := by
    intro p c hp
    rcases h.restored hrestored hp with hbag | ⟨hfails, hok, hdir, hfile⟩
    · exact Or.inl hbag
    · obtain ⟨quarantine, hdir⟩ := Option.isSome_iff_exists.mp hdir
      exact Or.inr ⟨hfails, after.2.1, by simp [hok, hdir], hfile⟩
  have hdeleted : (if after.2.2 then none else s.quarantine.map fun _ => after.2.1) = none →
      ∀ p c, bag.lookup p = some c → after.1.lookup p = some c := by
    intro hnone p c hp
    rcases hheld p c hp with hbag | ⟨_, quarantine, hsome, _⟩
    · exact hbag
    · rw [hnone] at hsome
      simp at hsome
  refine ⟨hheld, hdeleted, fun hr => ?_⟩
  cases success with
  | error error => simp [Except.map] at hr
  | ok value =>
    have hboth : (value && after.2.2) = true := Except.ok.inj hr
    obtain ⟨rfl, hok⟩ := (Bool.and_eq_true _ _).mp hboth
    refine ⟨hdeleted (by rw [hok, if_pos rfl]), ?_⟩
    have hmetadata := (hrestored.other metadataFile (by simpa using h.metadata)).1
    have hbefore := hexists rfl
    unfold State.metadataExists at hbefore ⊢
    dsimp only
    rw [hmetadata]
    exact hbefore

/-- An empty file, one cut short and one that is complete. -/
def brokenBag : Files :=
  List.toAList [⟨["a.mcap".toList], []⟩, ⟨["b.mcap".toList], [1]⟩, ⟨["c.mcap".toList], [1, 2]⟩]

/-- A system on which the file cut short cannot be moved back. -/
def brokenEnvironment : Environment where
  bagRealpath := ["bags".toList, "run".toList]
  directory path := if path = "/bags/run/".toList then ["bags".toList, "run".toList] else []
  mkdtempFails := false
  moveFails _ := false
  restoreFails path := path = ["b.mcap".toList]

/-- The command stops at the file cut short, and then succeeds. -/
def brokenOutcomes : List Outcome :=
  .completed none 1 [] "Could not open '/bags/run/b.mcap': file too small".toList ::
    List.replicate 3 (.completed (some [7]) 0 [] [])

/-- The file cut short stays in the quarantine directory. -/
example : (reindexBag brokenEnvironment brokenOutcomes brokenBag []).map (fun r =>
    (r.2.bag.keys.map (·.map String.ofList), r.2.quarantine.map (·.keys.map (·.map String.ofList)))) =
    some ([["a.mcap"], ["metadata.yaml"], ["c.mcap"]], some [["b.mcap"]]) := by decide +kernel

end LogAnalysis
