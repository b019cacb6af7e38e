import RobotFramework.Orchestrator.Merge

/-!
# Merging as a union of paths

A nested mapping gives a value to some key paths. `merge_config` gives each path the overlay's value
where the overlay holds or stands above it with something other than a mapping, a mapping where the
overlay holds one, and the base's value everywhere else. Lists that are merged by name are left out:
`NoNamedListClash` says that no such list stands on both sides.
-/

namespace Orchestrator

open Python

/-! ## Paths of the overlay -/

/-- Some prefix of the path holds a value that is not a mapping. -/
def Overridden (v : Value) (p : List Key) : Prop :=
  ∃ q x, q <+: p ∧ v.path q = some x ∧ x.isDict = false

def HoldsMapping (v : Value) (p : List Key) : Prop := ∃ d, v.path p = some (.dict d)

/-- No `nodes` or `sensors` key holds a list on both sides. -/
def NoNamedListClash (base overlay : Value) : Prop :=
  ∀ ks k, NamedListKey (some k) → ∀ bs os, base.path (ks ++ [k]) = some (.list bs) →
    overlay.path (ks ++ [k]) ≠ some (.list os)

theorem NoNamedListClash.field {base overlay x : Value} {j : Key}
    (h : NoNamedListClash base overlay) (hx : overlay.field j = some x) :
    NoNamedListClash ((base.field j).getD .null) x := by
  intro ks k hk bs os hbase hoverlay
  rw [path_getD_null] at hbase
  refine h (j :: ks) k hk bs os ?_ ?_
  · rw [List.cons_append, Value.path_cons]
    exact hbase
  · rw [List.cons_append, Value.path_cons, hx]
    exact hoverlay

/-- No path leads to a list. -/
def NoLists (v : Value) : Prop := ∀ p xs, v.path p ≠ some (.list xs)

theorem noLists_scalar (s : Scalar) : NoLists (.scalar s) := by
  intro p xs h
  cases p with
  | nil => cases h
  | cons k p => cases h

theorem noLists_dict {d : Dict Value} (h : ∀ e ∈ d, NoLists e.2) : NoLists (.dict d) := by
  intro p xs hp
  cases p with
  | nil => cases hp
  | cons k p =>
    rw [Value.path_cons, Option.bind_eq_some_iff] at hp
    obtain ⟨x, hx, hp⟩ := hp
    obtain ⟨i, _, hmem⟩ := Dict.mem_of_get hx
    exact h _ hmem p xs hp

theorem NoLists.noClash {overlay : Value} (h : NoLists overlay) (base : Value) :
    NoNamedListClash base overlay := by
  intro ks k _ _ os _
  exact h (ks ++ [k]) os

/-! ## Replacing -/

theorem mergeConfig_override {b o : Value} {key : Option Key} (ho : o.isDict = false)
    (hlists : NamedListKey key → ∀ bs os, b = .list bs → o ≠ .list os) :
    mergeConfig b o key = .ok o := by
  by_cases hkey : NamedListKey key
  · cases o with
    | dict o => cases ho
    | scalar s => rw [mergeConfig]
    | list os =>
      cases b with
      | list bs => exact absurd rfl (hlists hkey bs os rfl)
      | _ => rw [mergeConfig]; simp
  · exact mergeConfig_replace ho hkey

/-! ## Merging returns -/

/-- The loop over the overlay's items returns if the merge of each item with the base's value does: the
keys are distinct, so no item sees what an earlier one has written. -/
theorem mergeItems_returns {items : Dict Value} : ∀ {merged : Dict Value}, items.keys.Nodup →
    (∀ e ∈ items, ∃ w, mergeConfig ((merged.get e.1.key).getD .null) e.2 (some e.1.key) = .ok w) →
    ∃ m, mergeItems merged items = .ok m := by
  induction items with
  | nil =>
    intro merged _ _
    exact ⟨merged, by rw [mergeItems]⟩
  | cons e items ih =>
    intro merged hnd hitems
    obtain ⟨k, v⟩ := e
    rw [Dict.keys_cons, List.nodup_cons] at hnd
    obtain ⟨⟨w, hw⟩, hitems⟩ := List.forall_mem_cons.mp hitems
    have hrest : ∃ m, mergeItems (merged.set k w) items = .ok m := by
      refine ih hnd.2 fun e he => ?_
      have hne : k.key ≠ e.1.key := by
        intro heq
        exact hnd.1 (heq ▸ List.mem_map_of_mem (f := fun e : Scalar × Value => e.1.key) he)
      rw [Dict.get_set_of_ne _ _ hne]
      exact hitems e he
    rw [mergeItems, hw]
    exact hrest

theorem mergeConfig_returns (o : Value) : ∀ {b : Value} {key : Option Key}, o.WF →
    NoNamedListClash b o → (NamedListKey key → ∀ bs os, b = .list bs → o ≠ .list os) →
    ∃ m, mergeConfig b o key = .ok m := by
  induction o using Value.induction with
  | scalar s =>
    intro b key _ _ hlists
    exact ⟨_, mergeConfig_override rfl hlists⟩
  | list os _ =>
    intro b key _ _ hlists
    exact ⟨_, mergeConfig_override rfl hlists⟩
  | dict o ih =>
    intro b key hwf hclash _
    cases hb : b.isDict with
    | false => exact ⟨_, mergeConfig_of_not_dict hb⟩
    | true =>
      obtain ⟨b, rfl⟩ := Value.isDict_iff.mp hb
      obtain ⟨hnd, hvalues⟩ := Value.wf_dict_iff.mp hwf
      have hitems : ∃ m, mergeItems b o = .ok m := by
        refine mergeItems_returns hnd fun e he => ?_
        have hget : (Value.dict o).field e.1.key = some e.2 := Dict.get_of_mem hnd he
        refine ih e he (hvalues e he) (hclash.field hget) fun hk bs os hbs hos => ?_
        -- the two lists would stand under one of the keys whose lists are merged by name
        refine hclash [] e.1.key hk bs os ?_ ?_
        · have hbase : (Dict.get b e.1.key).getD .null = .list bs := hbs
          rw [List.nil_append, Value.path_cons, Value.field_dict]
          cases hg : Dict.get b e.1.key with
          | none =>
            rw [hg] at hbase
            cases hbase
          | some x =>
            rw [hg] at hbase
            rw [Option.bind_some, Value.path_nil]
            exact congrArg some hbase
        · rw [List.nil_append, Value.path_cons, hget, hos]
          rfl
      obtain ⟨m, hm⟩ := hitems
      exact ⟨.dict m, by rw [mergeConfig_dict, hm]; rfl⟩

/-! ## The three kinds of paths -/

section Paths

variable {base overlay merged : Value} {key : Option Key} {p : List Key}

theorem mergeConfig_overridden (hwf : overlay.WF) (hdict : overlay.isDict = true)
    (hclash : NoNamedListClash base overlay) (h : mergeConfig base overlay key = .ok merged)
    (hp : Overridden overlay p) : merged.path p = overlay.path p := by
  obtain ⟨q, x, ⟨rest, rfl⟩, hq, hx⟩ := hp
  have hmerged : merged.path q = some x := by
    rcases List.eq_nil_or_concat' q with rfl | ⟨ks, k, rfl⟩
    · cases hq
      rw [hdict] at hx
      cases hx
    · obtain ⟨w, hw, hm⟩ := mergeConfig_path_some ks k hwf h hq
      have hreplace : mergeConfig ((base.path (ks ++ [k])).getD .null) x (some k) = .ok x := by
        refine mergeConfig_override hx fun hk bs os hbs hos => ?_
        cases hbase : base.path (ks ++ [k]) with
        | none =>
          rw [hbase] at hbs
          cases hbs
        | some y =>
          rw [hbase] at hbs
          refine hclash ks k hk bs os ?_ ?_
          · rw [hbase]
            exact congrArg some hbs
          · rw [hq, hos]
      rw [hm, ← Except.ok.inj (hw.symm.trans hreplace)]
  rw [Value.path_append, Value.path_append, hmerged, hq]

theorem mergeConfig_holdsMapping (hwf : overlay.WF) (h : mergeConfig base overlay key = .ok merged)
    (hp : HoldsMapping overlay p) : HoldsMapping merged p := by
  obtain ⟨d, hd⟩ := hp
  rcases List.eq_nil_or_concat' p with rfl | ⟨ks, k, rfl⟩
  · cases hd
    obtain ⟨m, hm⟩ := Value.isDict_iff.mp (mergeConfig_isDict h)
    exact ⟨m, by rw [Value.path_nil, hm]⟩
  · obtain ⟨w, hw, hm⟩ := mergeConfig_path_some ks k hwf h hd
    obtain ⟨m, rfl⟩ := Value.isDict_iff.mp (mergeConfig_isDict hw)
    exact ⟨m, hm⟩

theorem path_eq_none (hover : ¬ Overridden overlay p) (hmap : ¬ HoldsMapping overlay p) :
    overlay.path p = none := by
  cases hp : overlay.path p with
  | none => rfl
  | some x =>
    cases hx : x.isDict with
    | false => exact absurd ⟨p, x, List.prefix_rfl, hp, hx⟩ hover
    | true =>
      obtain ⟨d, rfl⟩ := Value.isDict_iff.mp hx
      exact absurd ⟨d, hp⟩ hmap

theorem mergeConfig_base (hwf : overlay.WF)
    (h : mergeConfig base overlay key = .ok merged) (hover : ¬ Overridden overlay p)
    (hp : overlay.path p = none) : merged.path p = base.path p := by
  rcases List.eq_nil_or_concat' p with rfl | ⟨ks, k, rfl⟩
  · cases hp
  · refine mergeConfig_path_none ks k hwf h hp fun q y hq hy => ?_
    cases hdy : y.isDict with
    | true => rfl
    | false => exact absurd ⟨q, y, hq.trans (List.prefix_append ks [k]), hy, hdy⟩ hover

end Paths

/-- **Pathwise union.** The merge of two mappings holds the overlay's value at every path the overlay
overrides, a mapping where the overlay holds one, and the base's value at every other path. -/
theorem mergeConfig_pathwise (base overlay : Yaml) (key : Option Key)
    (hbase : base.1.isDict = true) (hoverlay : overlay.1.isDict = true)
    (hclash : NoNamedListClash base.1 overlay.1) :
    ∃ merged, mergeConfig base.1 overlay.1 key = .ok merged ∧ merged.isDict = true ∧ ∀ p,
      (Overridden overlay.1 p → merged.path p = overlay.1.path p) ∧
      (HoldsMapping overlay.1 p → HoldsMapping merged p) ∧
      (¬ Overridden overlay.1 p → ¬ HoldsMapping overlay.1 p → merged.path p = base.1.path p) ∧
      ∀ v, base.1.path p = some v → overlay.1.path p = none → ¬ Overridden overlay.1 p →
        merged.path p = some v := by
  have hnotlist : NamedListKey key → ∀ bs os, base.1 = .list bs → overlay.1 ≠ .list os := by
    intro _ bs os hbs _
    rw [hbs] at hbase
    cases hbase
  obtain ⟨merged, h⟩ := mergeConfig_returns overlay.1 overlay.2 hclash hnotlist
  refine ⟨merged, h, (mergeConfig_isDict h).trans hoverlay, fun p => ⟨?_, ?_, ?_, ?_⟩⟩
  · exact mergeConfig_overridden overlay.2 hoverlay hclash h
  · exact mergeConfig_holdsMapping overlay.2 h
  · intro hover hmap
    exact mergeConfig_base overlay.2 h hover (path_eq_none hover hmap)
  · intro v hv hp hover
    rw [mergeConfig_base overlay.2 h hover hp, hv]

/-- The parameters of a robot: its frame and its rate. -/
def robotParameters : Yaml :=
  ⟨.mapping [("robot", .mapping [("frame", .str "base_link"), ("rate", .scalar (.int 10))])],
    by simp [Value.mapping, Value.WF, Value.WFDict]⟩

/-- An overlay that sets the rate. -/
def rateOverlay : Yaml :=
  ⟨.mapping [("robot", .mapping [("rate", .scalar (.int 20))])],
    by simp [Value.mapping, Value.WF, Value.WFDict]⟩

/-- The overlay's rate replaces the base's, whose frame stays. -/
theorem rateOverlay_pathwise :
    ∃ merged, mergeConfig robotParameters.1 rateOverlay.1 none = .ok merged ∧
      merged.path [.str "robot", .str "rate"] = some (.scalar (.int 20)) ∧
      merged.path [.str "robot", .str "frame"] = some (.str "base_link") := by
  have hlists : NoLists rateOverlay.1 := by
    refine noLists_dict fun e he => ?_
    rw [List.mem_singleton.mp he]
    refine noLists_dict fun e he => ?_
    rw [List.mem_singleton.mp he]
    exact noLists_scalar _
  obtain ⟨merged, h, _, hpath⟩ := mergeConfig_pathwise robotParameters rateOverlay none rfl rfl
    (hlists.noClash _)
  refine ⟨merged, h, ?_, ?_⟩
  · exact (hpath _).1 ⟨_, _, List.prefix_rfl, rfl, rfl⟩
  · refine (hpath _).2.2.2 _ rfl rfl ?_
    rintro ⟨q, x, hq, hx, hdict⟩
    -- the overlay holds mappings at the two proper prefixes and nothing at the frame
    rcases List.prefix_cons_iff.mp hq with rfl | ⟨t, rfl, ht⟩
    · cases hx
      cases hdict
    · rcases List.prefix_cons_iff.mp ht with rfl | ⟨t, rfl, -⟩
      · cases hx
        cases hdict
      · cases hx

end Orchestrator
