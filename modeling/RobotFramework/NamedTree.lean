import Mathlib.Data.List.Nodup

/-!
# Trees with named children

A node has a label and children with names; a path is the list of the names from the root to a node. A
walk visits the nodes top down, a node before its children, and what it does at a node may keep it from
some of the children (`walk`). A search that keeps out of the nodes below those it has found finds the
topmost nodes of a kind (`walk_search`): they lie at different paths, none above another, and every node
of the kind lies at or below exactly one of them (`mem_topmost`, `existsUnique_topmost`).
-/

namespace NamedTree

mutual

/-- A tree with named children. -/
inductive Tree (ν α : Type) where
  | node (label : α) (children : Forest ν α)

/-- The children of a node. -/
inductive Forest (ν α : Type) where
  | nil
  | cons (name : ν) (tree : Tree ν α) (rest : Forest ν α)

end

variable {ν α : Type}

def Forest.names : Forest ν α → List ν
  | .nil => []
  | .cons name _ rest => name :: rest.names

mutual

/-- Children of one node have different names. -/
def Tree.Distinct : Tree ν α → Prop
  | .node _ children => children.Distinct

/-- `Tree.Distinct` for all children. -/
def Forest.Distinct : Forest ν α → Prop
  | .nil => True
  | .cons name tree rest => name ∉ rest.names ∧ tree.Distinct ∧ rest.Distinct

end

/-! ## Paths -/

section Paths

variable [DecidableEq ν]

mutual

/-- The label of the node at a path. -/
def Tree.label : Tree ν α → List ν → Option α
  | .node label _, [] => some label
  | .node _ children, name :: path => children.label name path

/-- The label of the node at a path below the child of a name. -/
def Forest.label : Forest ν α → ν → List ν → Option α
  | .nil, _, _ => none
  | .cons n tree rest, name, path => if n = name then tree.label path else rest.label name path

end

/-- The node at a path is of a kind. -/
def Tree.Holds (p : α → Bool) (t : Tree ν α) (path : List ν) : Prop :=
  ∃ label, t.label path = some label ∧ p label = true

/-- The node at a path below the child of a name is of a kind. -/
def Forest.Holds (p : α → Bool) (f : Forest ν α) (name : ν) (path : List ν) : Prop :=
  ∃ label, f.label name path = some label ∧ p label = true

variable {p : α → Bool}

theorem holds_nil (label : α) (children : Forest ν α) :
    (Tree.node label children).Holds p [] ↔ p label = true := by
  simp [Tree.Holds, Tree.label]

theorem holds_cons (label : α) (children : Forest ν α) (name : ν) (path : List ν) :
    (Tree.node label children).Holds p (name :: path) ↔ children.Holds p name path := by
  simp [Tree.Holds, Forest.Holds, Tree.label]

theorem holds_head (name : ν) (tree : Tree ν α) (rest : Forest ν α) (path : List ν) :
    (Forest.cons name tree rest).Holds p name path ↔ tree.Holds p path := by
  simp [Tree.Holds, Forest.Holds, Forest.label]

theorem holds_rest {n name : ν} (h : n ≠ name) (tree : Tree ν α) (rest : Forest ν α)
    (path : List ν) : (Forest.cons n tree rest).Holds p name path ↔ rest.Holds p name path := by
  simp [Forest.Holds, Forest.label, h]

end Paths

/-! ## Topmost nodes -/

section Topmost

mutual

/-- The paths to the topmost nodes of a kind, in the order of a walk. -/
def Tree.topmost (p : α → Bool) : Tree ν α → List (List ν)
  | .node label children => if p label then [[]] else children.topmost p

/-- `Tree.topmost` below all children. -/
def Forest.topmost (p : α → Bool) : Forest ν α → List (List ν)
  | .nil => []
  | .cons name tree rest => (tree.topmost p).map (name :: ·) ++ rest.topmost p

end

variable {p : α → Bool}

theorem names_of_mem_topmost {f : Forest ν α} {path : List ν} (h : path ∈ f.topmost p) :
    ∃ name ∈ f.names, ∃ below, path = name :: below := by
  match f with
  | .nil => exact absurd h List.not_mem_nil
  | .cons name tree rest =>
    rcases List.mem_append.mp h with hhead | hrest
    · obtain ⟨below, -, rfl⟩ := List.mem_map.mp hhead
      exact ⟨name, List.mem_cons_self, below, rfl⟩
    · obtain ⟨name', hname', below, rfl⟩ := names_of_mem_topmost hrest
      exact ⟨name', List.mem_cons_of_mem _ hname', below, rfl⟩

mutual

theorem Tree.nodup_topmost : ∀ t : Tree ν α, t.Distinct → (t.topmost p).Nodup
  | .node label children, h => by
    unfold Tree.topmost
    split_ifs
    · exact List.nodup_singleton _
    · exact Forest.nodup_topmost children h

theorem Forest.nodup_topmost : ∀ f : Forest ν α, f.Distinct → (f.topmost p).Nodup
  | .nil, _ => List.nodup_nil
  | .cons name tree rest, h => by
    obtain ⟨hname, htree, hrest⟩ := h
    refine List.Nodup.append ?_ (Forest.nodup_topmost rest hrest) ?_
    · exact (Tree.nodup_topmost tree htree).map fun _ _ hcons => (List.cons.inj hcons).2
    · intro path hhead hlater
      obtain ⟨below, -, rfl⟩ := List.mem_map.mp hhead
      obtain ⟨name', hname', below', hcons⟩ := names_of_mem_topmost hlater
      exact hname ((List.cons.inj hcons).1 ▸ hname')

end

variable [DecidableEq ν]

mutual

/-- The paths found are those of the nodes of the kind with no such node above. -/
theorem Tree.mem_topmost : ∀ t : Tree ν α, t.Distinct → ∀ path,
    path ∈ t.topmost p ↔ t.Holds p path ∧ ∀ above, above <+: path → above ≠ path → ¬ t.Holds p above
  | .node label children, h, path => by
    unfold Tree.topmost
    by_cases hp : p label = true
    · rw [if_pos hp, List.mem_singleton]
      constructor
      · rintro rfl
        refine ⟨(holds_nil label children).mpr hp, ?_⟩
        intro above habove hne
        exact absurd (List.prefix_nil.mp habove) hne
      · rintro ⟨-, habove⟩
        by_contra hne
        exact habove [] List.nil_prefix (Ne.symm hne) ((holds_nil label children).mpr hp)
    · rw [if_neg hp]
      cases path with
      | nil =>
        rw [holds_nil]
        refine iff_of_false ?_ fun hnil => hp hnil.1
        intro hmem
        obtain ⟨name, -, below, hcons⟩ := names_of_mem_topmost hmem
        exact List.cons_ne_nil name below hcons.symm
      | cons name path =>
        rw [Forest.mem_topmost children h name path, holds_cons]
        refine and_congr_right fun _ => ?_
        constructor
        · intro hbelow above habove hne
          cases above with
          | nil => rwa [holds_nil]
          | cons name' above =>
            obtain ⟨rfl, hprefix⟩ := List.cons_prefix_cons.mp habove
            rw [holds_cons]
            exact hbelow above hprefix fun heq => hne (heq ▸ rfl)
        · intro hall above habove hne
          have := hall (name :: above) (List.cons_prefix_cons.mpr ⟨rfl, habove⟩)
            fun heq => hne (List.cons.inj heq).2
          rwa [holds_cons] at this

theorem Forest.mem_topmost : ∀ f : Forest ν α, f.Distinct → ∀ name path,
    name :: path ∈ f.topmost p ↔
      f.Holds p name path ∧ ∀ above, above <+: path → above ≠ path → ¬ f.Holds p name above
  | .nil, _, name, path => by simp [Forest.topmost, Forest.Holds, Forest.label]
  | .cons n tree rest, h, name, path => by
    obtain ⟨hn, htree, hrest⟩ := h
    unfold Forest.topmost
    rw [List.mem_append]
    by_cases hname : n = name
    · subst hname
      have hlater : n :: path ∉ rest.topmost p := by
        intro hmem
        obtain ⟨name', hname', below, hcons⟩ := names_of_mem_topmost hmem
        exact hn ((List.cons.inj hcons).1 ▸ hname')
      simp only [holds_head, hlater, or_false]
      rw [List.mem_map_of_injective fun _ _ hcons => (List.cons.inj hcons).2]
      exact Tree.mem_topmost tree htree path
    · have hhead : name :: path ∉ (tree.topmost p).map (n :: ·) := by
        intro hmem
        obtain ⟨below, -, hcons⟩ := List.mem_map.mp hmem
        exact hname (List.cons.inj hcons).1
      simp only [holds_rest hname, hhead, false_or]
      exact Forest.mem_topmost rest hrest name path

end

variable {t : Tree ν α}

theorem antichain_topmost (h : t.Distinct) {a b : List ν} (ha : a ∈ t.topmost p)
    (hb : b ∈ t.topmost p) (hab : a <+: b) : a = b := by
  by_contra hne
  exact ((t.mem_topmost h b).mp hb).2 a hab hne ((t.mem_topmost h a).mp ha).1

theorem exists_topmost (h : t.Distinct) {path : List ν} (hpath : t.Holds p path) :
    ∃ top, top ∈ t.topmost p ∧ top <+: path := by
  by_cases hhigher : ∃ above, above <+: path ∧ above ≠ path ∧ t.Holds p above
  · obtain ⟨above, habove, hne, hholds⟩ := hhigher
    have hshorter : above.length < path.length :=
      Nat.lt_of_le_of_ne habove.length_le fun hlength => hne (habove.eq_of_length hlength)
    obtain ⟨top, hmem, htop⟩ := exists_topmost h hholds
    exact ⟨top, hmem, htop.trans habove⟩
  · refine ⟨path, (t.mem_topmost h path).mpr ⟨hpath, ?_⟩, List.prefix_rfl⟩
    intro above habove hne hholds
    exact hhigher ⟨above, habove, hne, hholds⟩
termination_by path.length

theorem existsUnique_topmost (h : t.Distinct) {path : List ν} (hpath : t.Holds p path) :
    ∃! top, top ∈ t.topmost p ∧ top <+: path := by
  obtain ⟨top, hmem, htop⟩ := exists_topmost h hpath
  refine ⟨top, ⟨hmem, htop⟩, ?_⟩
  rintro other ⟨hother, hotherTop⟩
  rcases List.prefix_or_prefix_of_prefix htop hotherTop with hle | hle
  · exact (antichain_topmost h hmem hother hle).symm
  · exact antichain_topmost h hother hmem hle

end Topmost

/-! ## Walks -/

section Walk

variable [DecidableEq ν] {σ π : Type} (extend : π → ν → π)

mutual

/-- A walk from a place on. What is done at a node depends on its place, the names of its children and its
label; it gives the names of the children that the walk goes into. -/
def Tree.walk (body : σ → π → List ν → α → σ × List ν) (s : σ) (place : π) : Tree ν α → σ
  | .node label children =>
    let (s, kept) := body s place children.names label
    children.walk body s place kept

/-- A walk into the children with a name that is kept. -/
def Forest.walk (body : σ → π → List ν → α → σ × List ν) (s : σ) (place : π) (kept : List ν) :
    Forest ν α → σ
  | .nil => s
  | .cons name tree rest =>
    let s := if name ∈ kept then tree.walk body s (extend place name) else s
    rest.walk body s place kept

end

/-- Notes a node of a kind and keeps out of its children. -/
def search (p : α → Bool) (found : List π) (place : π) (names : List ν) (label : α) :
    List π × List ν :=
  if p label then (found ++ [place], []) else (found, names)

theorem walk_nil (body : σ → π → List ν → α → σ × List ν) (s : σ) (place : π) (f : Forest ν α) :
    f.walk extend body s place [] = s := by
  match f with
  | .nil => rfl
  | .cons name tree rest =>
    unfold Forest.walk
    rw [if_neg List.not_mem_nil]
    exact walk_nil body s place rest

variable (p : α → Bool)

mutual

/-- **Search.** The walk notes the topmost nodes of the kind. -/
theorem Tree.walk_search : ∀ (t : Tree ν α) (found : List π) (place : π),
    t.walk extend (search p) found place =
      found ++ (t.topmost p).map fun path => path.foldl extend place
  | .node label children, found, place => by
    unfold Tree.walk Tree.topmost search
    by_cases hp : p label = true
    · rw [if_pos hp, if_pos hp]
      exact walk_nil extend _ _ place children
    · rw [if_neg hp, if_neg hp]
      exact Forest.walk_search children found place children.names fun _ => id

theorem Forest.walk_search : ∀ (f : Forest ν α) (found : List π) (place : π) (kept : List ν),
    f.names ⊆ kept →
      f.walk extend (search p) found place kept =
        found ++ (f.topmost p).map fun path => path.foldl extend place
  | .nil, found, _, _, _ => (List.append_nil found).symm
  | .cons name tree rest, found, place, kept, hkept => by
    obtain ⟨hname, hrest⟩ := List.cons_subset.mp hkept
    unfold Forest.walk Forest.topmost
    rw [if_pos hname, Tree.walk_search tree, Forest.walk_search rest _ _ _ hrest, List.map_append,
      List.map_map, List.append_assoc]
    rfl

end

end Walk

end NamedTree
