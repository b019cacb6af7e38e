import Mathlib.Data.List.Basic
import Mathlib.Data.List.Nodup

/-!
# Depth-first search with a visited set

A search goes through the values below a value in pre-order, down to a number of levels, and returns the
first result of a test. It passes over a value whose key it has met before. If no key occurs twice, it
passes over nothing, and its result is that of the plain pre-order list (`search_eq_findSome?`).

A traversal lists the values with their depths; the levels of a search are a bound on the depth
(`IsTraversal.filter_depth`).
-/

namespace DepthFirst

variable {α κ τ : Type}

/-- Visits some values until one gives a result, and returns the visited keys with it. -/
def visitAll (visit : α → List κ → Option τ × List κ) : List α → List κ → Option τ × List κ
  | [], visited => (none, visited)
  | a :: rest, visited =>
    match visit a visited with
    | (some result, visited) => (some result, visited)
    | (none, visited) => visitAll visit rest visited

section Search

variable (children : α → List α) (key : α → Option κ) (test : α → Option τ)

/-- The search below a value, some levels deep. -/
def search [DecidableEq κ] : Nat → α → List κ → Option τ × List κ
  | 0, _, visited => (none, visited)
  | levels + 1, a, visited =>
    match test a with
    | some result => (some result, visited)
    | none =>
      match key a with
      | none => visitAll (search levels) (children a) visited
      | some k =>
        if k ∈ visited then (none, visited) else visitAll (search levels) (children a) (k :: visited)

/-- The values below a value in pre-order, some levels deep. -/
def preorder : Nat → α → List α
  | 0, _ => []
  | levels + 1, a => a :: (children a).flatMap (preorder levels)

end Search

section Trees

variable {children : α → List α} {key : α → Option κ} {test : α → Option τ}

/-- What a visit does of some values whose keys are new and different: it gives the first result, and
adds no other keys. -/
structure Finds (key : α → Option κ) (test : α → Option τ) (values : List α) (visited : List κ)
    (out : Option τ × List κ) : Prop where
  result : out.1 = values.findSome? test
  visited : ∀ k ∈ out.2, k ∈ visited ∨ k ∈ values.filterMap key

/-- The keys of some values are different from each other and from the visited ones. -/
structure Fresh (key : α → Option κ) (values : List α) (visited : List κ) : Prop where
  nodup : (values.filterMap key).Nodup
  unvisited : ∀ k ∈ values.filterMap key, k ∉ visited

theorem Fresh.left {values more : List α} {visited : List κ} (h : Fresh key (values ++ more) visited) :
    Fresh key values visited := by
  obtain ⟨hnodup, hunvisited⟩ := h
  rw [List.filterMap_append] at hnodup hunvisited
  exact ⟨hnodup.of_append_left, fun k hk => hunvisited k (List.mem_append_left _ hk)⟩

theorem Fresh.right {values more : List α} {visited : List κ} {out : Option τ × List κ}
    (h : Fresh key (values ++ more) visited) (hout : Finds key test values visited out) :
    Fresh key more out.2 := by
  obtain ⟨hnodup, hunvisited⟩ := h
  rw [List.filterMap_append] at hnodup hunvisited
  refine ⟨hnodup.of_append_right, fun k hk hvisited => ?_⟩
  rcases hout.visited k hvisited with hold | hnew
  · exact hunvisited k (List.mem_append_right _ hk) hold
  · exact (List.nodup_append.mp hnodup).2.2 k hnew k hk rfl

theorem visitAll_finds {visit : α → List κ → Option τ × List κ} {below : α → List α}
    (hvisit : ∀ a visited, Fresh key (below a) visited → Finds key test (below a) visited (visit a visited))
    (values : List α) : ∀ visited, Fresh key (values.flatMap below) visited →
      Finds key test (values.flatMap below) visited (visitAll visit values visited) := by
  induction values with
  | nil =>
    intro visited _
    exact ⟨rfl, fun k hk => .inl hk⟩
  | cons a values ih =>
    intro visited hfresh
    rw [List.flatMap_cons] at hfresh ⊢
    have ha := hvisit a visited hfresh.left
    have hrest := ih (visit a visited).2 (hfresh.right ha)
    rw [visitAll]
    rcases hout : visit a visited with ⟨_ | result, visited'⟩
    · rw [hout] at ha hrest
      constructor
      · rw [hrest.result, List.findSome?_append, ← ha.result, Option.none_or]
      · intro k hk
        rw [List.filterMap_append, List.mem_append]
        rcases hrest.visited k hk with hk | hk
        · exact (ha.visited k hk).imp_right .inl
        · exact .inr (.inr hk)
    · rw [hout] at ha
      constructor
      · rw [List.findSome?_append, ← ha.result, Option.some_or]
      · intro k hk
        rw [List.filterMap_append, List.mem_append]
        exact (ha.visited k hk).imp_right .inl

variable [DecidableEq κ]

/-- Where all keys are new and different, the visited set hides nothing. -/
theorem search_finds (levels : Nat) : ∀ (a : α) (visited : List κ),
    Fresh key (preorder children levels a) visited →
      Finds key test (preorder children levels a) visited
        (search children key test levels a visited) := by
  induction levels with
  | zero =>
    intro a visited _
    exact ⟨rfl, fun k hk => .inl hk⟩
  | succ levels ih =>
    intro a visited hfresh
    obtain ⟨hnodup, hunvisited⟩ := hfresh
    rw [preorder] at hnodup hunvisited ⊢
    rw [search]
    cases htest : test a with
    | some result =>
      refine ⟨?_, fun k hk => .inl hk⟩
      rw [List.findSome?_cons, htest]
    | none =>
      have hresult : (a :: (children a).flatMap (preorder children levels)).findSome? test =
          ((children a).flatMap (preorder children levels)).findSome? test := by
        rw [List.findSome?_cons, htest]
      cases hkey : key a with
      | none =>
        rw [List.filterMap_cons_none hkey] at hnodup hunvisited
        have hrest := visitAll_finds ih (children a) visited ⟨hnodup, hunvisited⟩
        refine ⟨hrest.result.trans hresult.symm, ?_⟩
        rw [List.filterMap_cons_none hkey]
        exact hrest.visited
      | some k =>
        rw [List.filterMap_cons_some hkey] at hnodup hunvisited
        obtain ⟨hk, hnodup⟩ := List.nodup_cons.mp hnodup
        have hnew : k ∉ visited := hunvisited k List.mem_cons_self
        have hrest := visitAll_finds ih (children a) (k :: visited) ⟨hnodup, fun j hj hmem => by
          rcases List.mem_cons.mp hmem with rfl | hmem
          · exact hk hj
          · exact hunvisited j (List.mem_cons_of_mem _ hj) hmem⟩
        dsimp only
        rw [if_neg hnew]
        refine ⟨hrest.result.trans hresult.symm, fun j hj => ?_⟩
        rw [List.filterMap_cons_some hkey, List.mem_cons]
        rcases hrest.visited j hj with hj | hj
        · rcases List.mem_cons.mp hj with rfl | hj
          · exact .inr (.inl rfl)
          · exact .inl hj
        · exact .inr (.inr hj)

/-- On a tree the search returns the first result in pre-order. -/
theorem search_eq_findSome? {levels : Nat} {a : α}
    (h : ((preorder children levels a).filterMap key).Nodup) :
    (search children key test levels a []).1 = (preorder children levels a).findSome? test :=
  (search_finds levels a [] ⟨h, fun _ _ hmem => nomatch hmem⟩).result

end Trees

/-! ## Depths -/

/-- The values below a value in pre-order, each with its depth. -/
def IsTraversal (children : α → List α) (traversal : Nat → α → List (Nat × α)) : Prop :=
  ∀ depth a, traversal depth a = (depth, a) :: (children a).flatMap (traversal (depth + 1))

section IsTraversal

variable {children : α → List α} {traversal : Nat → α → List (Nat × α)}

theorem IsTraversal.depth_le (h : IsTraversal children traversal) {depth : Nat} {a : α} :
    ∀ p ∈ traversal depth a, depth ≤ p.1 := by
  induction hlen : (traversal depth a).length using Nat.strongRecOn generalizing depth a with
  | ind len ih =>
    intro p hp
    rw [h, List.mem_cons, List.mem_flatMap] at hp
    rcases hp with rfl | ⟨c, hc, hp⟩
    · exact Nat.le_refl _
    · -- The list of a child is a part of the list of its parent.
      have hshorter : (traversal (depth + 1) c).length < len := by
        have hpart : (traversal (depth + 1) c).length ≤
            ((children a).map (traversal (depth + 1))).flatten.length :=
          (List.sublist_flatten_of_mem (List.mem_map_of_mem hc)).length_le
        rw [← hlen, h depth a, List.length_cons, List.flatMap_def]
        exact Nat.lt_succ_of_le hpart
      have := ih _ hshorter rfl p hp
      omega

/-- Some levels of a traversal are the values whose depths are below a bound. -/
theorem IsTraversal.filter_depth (h : IsTraversal children traversal) (levels : Nat) :
    ∀ (depth : Nat) (a : α), ((traversal depth a).filter (·.1 < depth + levels)).map Prod.snd =
      preorder children levels a := by
  induction levels with
  | zero =>
    intro depth a
    rw [preorder, List.map_eq_nil_iff, List.filter_eq_nil_iff]
    intro p hp
    have := h.depth_le p hp
    simpa using this
  | succ levels ih =>
    intro depth a
    have hbelow : ∀ c, ((traversal (depth + 1) c).filter (·.1 < depth + (levels + 1))).map Prod.snd =
        preorder children levels c := by
      intro c
      rw [← ih (depth + 1) c]
      congr 2
      funext p
      congr 1
      rw [Nat.add_right_comm, Nat.add_assoc]
    rw [h, List.filter_cons_of_pos (by simp), List.map_cons, List.filter_flatMap, List.map_flatMap,
      preorder]
    simp only [hbelow]

end IsTraversal

end DepthFirst
