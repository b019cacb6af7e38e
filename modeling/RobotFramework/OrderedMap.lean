import Mathlib.Data.List.Nodup

/-!
# Insertion-ordered maps

The entries of an ordered map are in the order in which their keys were inserted. No key occurs twice.
Between the entries there may be elements without a key, which no operation touches.
-/

/-- An insertion-ordered map with elements without a key in between. -/
structure OrderedMap (κ α : Type) where
  entries : List (Option κ × α)
  distinct : (entries.filterMap Prod.fst).Nodup

namespace OrderedMap

variable {κ α : Type}

theorem ext_entries {m m' : OrderedMap κ α} (h : m.entries = m'.entries) : m = m' := by
  obtain ⟨entries, _⟩ := m
  obtain ⟨entries', _⟩ := m'
  cases h
  rfl

def elements (m : OrderedMap κ α) : List α := m.entries.map Prod.snd

variable [DecidableEq κ]

def get (m : OrderedMap κ α) (k : κ) : Option α := (m.entries.find? (·.1 = some k)).map Prod.snd

def delete (m : OrderedMap κ α) (k : κ) : OrderedMap κ α where
  entries := m.entries.filter (·.1 ≠ some k)
  distinct := m.distinct.sublist (List.filter_sublist.filterMap _)

/-- The entries with a new element under a key that occurs, or at the end. -/
def insertEntries (entries : List (Option κ × α)) (k : κ) (a : α) : List (Option κ × α) :=
  if some k ∈ entries.map Prod.fst then entries.map fun e => if e.1 = some k then (some k, a) else e
  else entries ++ [(some k, a)]

theorem keys_insertEntries (entries : List (Option κ × α)) (k : κ) (a : α) :
    (insertEntries entries k a).filterMap Prod.fst =
      if some k ∈ entries.map Prod.fst then entries.filterMap Prod.fst
      else entries.filterMap Prod.fst ++ [k] := by
  unfold insertEntries
  split_ifs
  · rw [List.filterMap_map]
    congr 1
    funext e
    by_cases he : e.1 = some k <;> simp [he]
  · rw [List.filterMap_append]
    rfl

/-- A new element replaces the one under its key in place, or is appended. -/
def insert (m : OrderedMap κ α) (k : κ) (a : α) : OrderedMap κ α where
  entries := insertEntries m.entries k a
  distinct := by
    rw [keys_insertEntries]
    split_ifs with h
    · exact m.distinct
    · rw [List.nodup_append]
      refine ⟨m.distinct, List.nodup_singleton k, ?_⟩
      rintro x hx y hy rfl
      rw [List.mem_singleton] at hy
      subst hy
      obtain ⟨e, he, hk⟩ := List.mem_filterMap.mp hx
      exact h (List.mem_map.mpr ⟨e, he, hk⟩)

variable {m : OrderedMap κ α} {k : κ} {a : α}

/-! ## A key that does not occur -/

section Absent
variable (h : some k ∉ m.entries.map Prod.fst)
include h

omit [DecidableEq κ] in
theorem key_ne_of_absent : ∀ e ∈ m.entries, e.1 ≠ some k :=
  fun _ he hk => h (List.mem_map.mpr ⟨_, he, hk⟩)

theorem get_of_absent : m.get k = none := by
  unfold get
  rw [Option.map_eq_none_iff, List.find?_eq_none]
  simpa using key_ne_of_absent h

theorem delete_of_absent : m.delete k = m := by
  apply ext_entries
  show m.entries.filter (·.1 ≠ some k) = m.entries
  rw [List.filter_eq_self]
  simpa using key_ne_of_absent h

theorem insert_of_absent : (m.insert k a).entries = m.entries ++ [(some k, a)] := by
  show insertEntries m.entries k a = _
  rw [insertEntries, if_neg h]

end Absent

/-! ## A key at its place -/

section Present
variable {before after : List (Option κ × α)} {old : α}
  (h : m.entries = before ++ (some k, old) :: after)
include h

omit [DecidableEq κ] in
theorem key_ne_of_split : (∀ e ∈ before, e.1 ≠ some k) ∧ ∀ e ∈ after, e.1 ≠ some k := by
  have hdistinct := m.distinct
  rw [h, List.filterMap_append, List.filterMap_cons_some (f := Prod.fst) rfl, List.nodup_middle,
    List.nodup_cons] at hdistinct
  have hmem {es : List (Option κ × α)} {e : Option κ × α} (he : e ∈ es) (hk : e.1 = some k) :
      k ∈ es.filterMap Prod.fst := List.mem_filterMap.mpr ⟨e, he, hk⟩
  constructor
  · exact fun e he hk => hdistinct.1 (List.mem_append_left _ (hmem he hk))
  · exact fun e he hk => hdistinct.1 (List.mem_append_right _ (hmem he hk))

theorem get_of_split : m.get k = some old := by
  have hbefore : before.find? (·.1 = some k) = none := by
    rw [List.find?_eq_none]
    simpa using (key_ne_of_split h).1
  unfold get
  rw [h, List.find?_append, hbefore, Option.none_or, List.find?_cons_of_pos (by simp)]
  rfl

theorem delete_of_split : (m.delete k).entries = before ++ after := by
  obtain ⟨hbefore, hafter⟩ := key_ne_of_split h
  show m.entries.filter (·.1 ≠ some k) = _
  rw [h, List.filter_append, List.filter_cons_of_neg (by simp), List.filter_eq_self.mpr,
    List.filter_eq_self.mpr]
  · simpa using hafter
  · simpa using hbefore

theorem insert_of_split : (m.insert k a).entries = before ++ (some k, a) :: after := by
  obtain ⟨hbefore, hafter⟩ := key_ne_of_split h
  have hkeep {es : List (Option κ × α)} (hes : ∀ e ∈ es, e.1 ≠ some k) :
      (es.map fun e => if e.1 = some k then (some k, a) else e) = es := by
    conv_rhs => rw [← List.map_id es]
    exact List.map_congr_left fun e he => if_neg (hes e he)
  show insertEntries m.entries k a = _
  rw [insertEntries, if_pos, h, List.map_append, List.map_cons, if_pos rfl, hkeep hbefore, hkeep hafter]
  rw [h]
  simp

end Present

/-! ## What an operation leaves alone -/

theorem delete_others {p : Option κ × α → Bool} (hp : ∀ e, p e = true → e.1 ≠ some k) :
    (m.delete k).entries.filter p = m.entries.filter p := by
  show (m.entries.filter (·.1 ≠ some k)).filter p = _
  rw [List.filter_filter]
  apply List.filter_congr
  intro e _
  cases hpe : p e with
  | false => rfl
  | true => simpa using hp e hpe

theorem insert_others {p : Option κ → Bool} (hp : p (some k) = false) :
    (m.insert k a).entries.filter (fun e => p e.1) = m.entries.filter (fun e => p e.1) := by
  show (insertEntries m.entries k a).filter _ = _
  unfold insertEntries
  split_ifs
  · induction m.entries with
    | nil => rfl
    | cons e es ih =>
      rw [List.map_cons]
      by_cases he : e.1 = some k
      · rw [if_pos he, List.filter_cons_of_neg (by simp [hp]), List.filter_cons_of_neg (by simp [he, hp]),
          ih]
      · rw [if_neg he, List.filter_cons, List.filter_cons, ih]
  · rw [List.filter_append, List.filter_cons_of_neg (by simp [hp])]
    simp

end OrderedMap
