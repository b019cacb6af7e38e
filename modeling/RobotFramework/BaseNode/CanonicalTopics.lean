import Mathlib.Data.List.DropRight
import RobotFramework.BaseNode.Topics

/-!
# Canonical topic names

A topic name is canonical if it is a slash, the namespace without the slashes around it, a slash and the
topic without the slashes in front, where an empty part is left out together with its slash.

`baseLoadConfig` cuts the slashes off the end of the namespace and puts one in front where there is none,
so a namespace keeps two or more slashes in front of it (`robotNamespace_eq`).
-/

namespace BaseNode

/-! ## Canonical names -/

/-- The characters that the loops cut off. -/
abbrev isSlash (c : Char) : Bool := c = '/'

/-- A string without the slashes around it. -/
def stripSlashes (s : List Char) : List Char := (s.dropWhile isSlash).rdropWhile isSlash

/-- The number of slashes in front of a string. -/
def leadingSlashes (s : List Char) : Nat := (s.takeWhile isSlash).length

/-- The non-empty ones of a namespace and a topic, joined by a slash, with a slash in front. -/
def canonicalTopic (namespaceName topic : List Char) : List Char :=
  '/' :: List.intercalate ['/'] ([namespaceName, topic].filter (· ≠ []))

theorem canonicalTopic_nil_left (topic : List Char) : canonicalTopic [] topic = '/' :: topic := by
  unfold canonicalTopic
  by_cases h : topic = []
  · subst h
    rfl
  · simp [h, List.intercalate]

theorem canonicalTopic_of_ne {namespaceName : List Char} (h : namespaceName ≠ []) (topic : List Char) :
    canonicalTopic namespaceName topic =
      '/' :: namespaceName ++ if topic = [] then [] else '/' :: topic := by
  unfold canonicalTopic
  by_cases ht : topic = []
  · simp [h, ht, List.intercalate]
  · simp [h, ht, List.intercalate]

/-! ## The loops -/

theorem popSlashesRev_zero (s : List Char) : popSlashesRev 0 s = s.dropWhile isSlash := by
  induction s with
  | nil => rfl
  | cons c s ih =>
    unfold popSlashesRev
    rw [List.dropWhile_cons]
    by_cases hc : c = '/'
    · rw [if_pos ⟨Nat.succ_pos _, hc⟩, if_pos (by simpa using hc), ih]
    · rw [if_neg (fun h => hc h.2), if_neg (by simpa using hc)]

theorem popSlashesRev_one {s : List Char} (h : ∃ c ∈ s, c ≠ '/') :
    popSlashesRev 1 s = s.dropWhile isSlash := by
  induction s with
  | nil =>
    obtain ⟨c, hc, _⟩ := h
    exact absurd hc List.not_mem_nil
  | cons a s ih =>
    by_cases ha : a = '/'
    · have hs : ∃ c ∈ s, c ≠ '/' := by
        obtain ⟨c, hc, hne⟩ := h
        rcases List.mem_cons.mp hc with rfl | hc
        · exact absurd ha hne
        · exact ⟨c, hc, hne⟩
      have hlen : 0 < s.length := by
        obtain ⟨c, hc, _⟩ := hs
        exact List.length_pos_of_mem hc
      unfold popSlashesRev
      rw [if_pos ⟨by omega, ha⟩, ih hs, List.dropWhile_cons, if_pos (by simpa using ha)]
    · rw [popSlashesRev_of_ne ha, List.dropWhile_cons, if_neg (by simpa using ha)]

theorem popSlashes_zero (s : List Char) : popSlashes 0 s = s.rdropWhile isSlash := by
  unfold popSlashes
  rw [popSlashesRev_zero]
  rfl

theorem popSlashes_one {s : List Char} (h : ∃ c ∈ s, c ≠ '/') :
    popSlashes 1 s = s.rdropWhile isSlash := by
  unfold popSlashes
  rw [popSlashesRev_one (by simpa using h)]
  rfl

theorem getNamespacedTopic_of_popSlashes {m namespaceName : List Char}
    (h : popSlashes 0 m = namespaceName) (t : List Char) :
    getNamespacedTopic m t =
      if t.dropWhile isSlash = [] then (if namespaceName = [] then ['/'] else namespaceName)
      else if namespaceName = [] then '/' :: t.dropWhile isSlash
      else namespaceName ++ '/' :: t.dropWhile isSlash := by
  rw [← h]
  rfl

/-! ## A namespace with a name -/

theorem takeWhile_isSlash (s : List Char) :
    s.takeWhile isSlash = List.replicate (leadingSlashes s) '/' := by
  refine List.eq_replicate_of_mem fun c hc => ?_
  simpa using List.mem_takeWhile_imp hc

section Name

variable {r : List Char} (h : ∃ c ∈ r, c ≠ '/')

include h

theorem stripSlashes_ne_nil : stripSlashes r ≠ [] := by
  intro hnil
  obtain ⟨c, hc, hne⟩ := h
  have hall := List.rdropWhile_eq_nil_iff.mp hnil
  rw [← List.takeWhile_append_dropWhile (p := isSlash) (l := r), List.mem_append] at hc
  rcases hc with hc | hc
  · exact hne (by simpa using List.mem_takeWhile_imp hc)
  · exact hne (by simpa using hall c hc)

theorem rdropWhile_isSlash :
    r.rdropWhile isSlash = List.replicate (leadingSlashes r) '/' ++ stripSlashes r := by
  have hkeep : (r.dropWhile isSlash).reverse.dropWhile isSlash ≠ [] := by
    intro hnil
    refine stripSlashes_ne_nil h ?_
    unfold stripSlashes List.rdropWhile
    rw [hnil, List.reverse_nil]
  have hsplit : r.rdropWhile isSlash =
      (r.takeWhile isSlash ++ r.dropWhile isSlash).rdropWhile isSlash := by
    rw [List.takeWhile_append_dropWhile]
  rw [hsplit, ← takeWhile_isSlash]
  unfold List.rdropWhile stripSlashes
  rw [List.reverse_append, List.dropWhile_append, if_neg (by simpa using hkeep), List.reverse_append,
    List.reverse_reverse]
  rfl

theorem head?_stripSlashes : (stripSlashes r).head? ≠ some '/' := by
  intro hhead
  have hcut : stripSlashes r <+: r.dropWhile isSlash := List.rdropWhile_prefix isSlash _
  obtain ⟨c, t, ht⟩ := List.exists_cons_of_ne_nil (stripSlashes_ne_nil h)
  rw [ht] at hhead hcut
  obtain ⟨rest, hrest⟩ := hcut
  rw [Option.some.inj hhead, List.cons_append] at hrest
  have hnot := List.head_dropWhile_not isSlash (l := r) (by rw [← hrest]; simp)
  simp [← hrest] at hnot

/-- **The stored namespace.** A namespace with a name is stored with the slashes in front of it, or with
one if there is none. -/
theorem robotNamespace_eq :
    robotNamespace r = List.replicate (max (leadingSlashes r) 1) '/' ++ stripSlashes r := by
  have hne := stripSlashes_ne_nil h
  have hhead := head?_stripSlashes h
  unfold robotNamespace
  rw [popSlashes_one h, rdropWhile_isSlash h]
  cases hk : leadingSlashes r with
  | zero =>
    have hslash : stripSlashes r ≠ ['/'] := by
      intro hs
      exact hhead (by rw [hs]; rfl)
    rw [List.replicate_zero, List.nil_append, if_neg hslash, if_pos (Or.inr hhead)]
    rfl
  | succ k =>
    have hslash : List.replicate (k + 1) '/' ++ stripSlashes r ≠ ['/'] := by
      intro hs
      have hlen := congrArg List.length hs
      have hpos := List.length_pos_of_ne_nil hne
      rw [List.length_append, List.length_replicate, List.length_singleton] at hlen
      omega
    have hfront : ¬ (List.replicate (k + 1) '/' ++ stripSlashes r = [] ∨
        (List.replicate (k + 1) '/' ++ stripSlashes r).head? ≠ some '/') := by
      simp [List.replicate_succ]
    rw [if_neg hslash, if_neg hfront, Nat.max_eq_left (Nat.succ_pos k)]

theorem getNamespacedTopic_eq (t : List Char) :
    getNamespacedTopic (robotNamespace r) t =
      List.replicate (leadingSlashes r - 1) '/' ++
        canonicalTopic (stripSlashes r) (t.dropWhile isSlash) := by
  have hlast : popSlashes 0 (robotNamespace r) = robotNamespace r :=
    popSlashes_of_getLast (robotNamespace_of_ne h).2
  have hslashes : robotNamespace r =
      List.replicate (leadingSlashes r - 1) '/' ++ '/' :: stripSlashes r := by
    have hk : max (leadingSlashes r) 1 = leadingSlashes r - 1 + 1 := by omega
    rw [robotNamespace_eq h, hk, List.replicate_succ', List.append_assoc, List.singleton_append]
  have hne : robotNamespace r ≠ [] := by
    rw [hslashes]
    simp
  rw [getNamespacedTopic_of_popSlashes hlast, if_neg hne, if_neg hne,
    canonicalTopic_of_ne (stripSlashes_ne_nil h)]
  by_cases ht : t.dropWhile isSlash = []
  · rw [if_pos ht, if_pos ht, List.append_nil, hslashes]
  · rw [if_neg ht, if_neg ht, hslashes, List.append_assoc]

end Name

/-! ## A namespace of slashes -/

theorem stripSlashes_slashes {r : List Char} (h : ∀ c ∈ r, c = '/') : stripSlashes r = [] := by
  have hdrop : r.dropWhile isSlash = [] := List.dropWhile_eq_nil_iff.mpr (by simpa using h)
  unfold stripSlashes
  rw [hdrop, List.rdropWhile_nil]

theorem getNamespacedTopic_slashes {r : List Char} (h : ∀ c ∈ r, c = '/') (t : List Char) :
    getNamespacedTopic (robotNamespace r) t =
      canonicalTopic (stripSlashes r) (t.dropWhile isSlash) := by
  have hpop : popSlashes 0 (robotNamespace r) = [] := by
    rw [robotNamespace_slashes h, popSlashes_zero]
    split_ifs <;> rfl
  rw [getNamespacedTopic_of_popSlashes hpop, if_pos rfl, if_pos rfl, stripSlashes_slashes h,
    canonicalTopic_nil_left]
  by_cases ht : t.dropWhile isSlash = []
  · rw [if_pos ht, ht]
  · rw [if_neg ht]

/-! ## Agreement -/

/-- The `robot_namespace` parameter has at most one slash in front, or nothing but slashes. -/
def OneLeadingSlash (r : List Char) : Prop := leadingSlashes r ≤ 1 ∨ ∀ c ∈ r, c = '/'

instance (r : List Char) : Decidable (OneLeadingSlash r) := inferInstanceAs (Decidable (_ ∨ _))

/-- The topic names of a node with the parameter are canonical. -/
def CanonicalTopics (r : List Char) : Prop :=
  ∀ t, getNamespacedTopic (robotNamespace r) t =
    canonicalTopic (stripSlashes r) (t.dropWhile isSlash)

theorem canonicalTopics_iff (r : List Char) : CanonicalTopics r ↔ OneLeadingSlash r := by
  unfold CanonicalTopics OneLeadingSlash
  by_cases h : ∀ c ∈ r, c = '/'
  · exact ⟨fun _ => Or.inr h, fun _ => getNamespacedTopic_slashes h⟩
  · have hname : ∃ c ∈ r, c ≠ '/' := by
      push Not at h
      exact h
    constructor
    · intro hall
      have htopic := hall []
      rw [getNamespacedTopic_eq hname] at htopic
      have hlen := congrArg List.length htopic
      rw [List.length_append, List.length_replicate] at hlen
      exact Or.inl (by omega)
    · rintro (hk | hs)
      · intro t
        rw [getNamespacedTopic_eq hname, Nat.sub_eq_zero_of_le hk]
        rfl
      · exact absurd hs h

/-- **Canonical topics.** The topic names of a node are canonical exactly if its `robot_namespace`
parameter has at most one slash in front or nothing but slashes; nodes with such parameters agree on a
topic whenever the parameters differ in the slashes around them and the topics in those in front. -/
theorem topics_canonical_iff (r : List Char) :
    (CanonicalTopics r ↔ OneLeadingSlash r) ∧
      (OneLeadingSlash r → ∀ r' t t', OneLeadingSlash r' → stripSlashes r = stripSlashes r' →
        t.dropWhile isSlash = t'.dropWhile isSlash →
        getNamespacedTopic (robotNamespace r) t = getNamespacedTopic (robotNamespace r') t') := by
  refine ⟨canonicalTopics_iff r, fun hr r' t t' hr' hname htopic => ?_⟩
  rw [(canonicalTopics_iff r).mpr hr t, (canonicalTopics_iff r').mpr hr' t', hname, htopic]

/-- The namespace `//robot` keeps both slashes. -/
theorem doubleSlash_not_canonical :
    getNamespacedTopic (robotNamespace "//robot".toList) "scan".toList = "//robot/scan".toList ∧
      getNamespacedTopic (robotNamespace "/robot/".toList) "scan".toList = "/robot/scan".toList ∧
      ¬ ∀ r, CanonicalTopics r := by
  refine ⟨by decide, by decide, fun hall => ?_⟩
  exact absurd (hall "//robot".toList "scan".toList) (by decide)

end BaseNode
