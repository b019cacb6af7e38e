import RobotFramework.Orchestrator.Merge

/-!
# Host resolution

`get_host_assignment` overlays a host's entry on the `*` entry, after the scenario has been merged
into both. `named_activeNodes` reduces the resolved node list, at one node name, to the named lists
of the two entries; `countAfter` then counts what a sequence of overlay items leaves of a name.
-/

namespace Orchestrator

open Python

/-! ## The code -/

/-- `get_host_assignment`. -/
def getHostAssignment (hostAssignments : Value) (currentHost : String) : Except PyError Value := do
  let wildcardAssignment ← hostAssignments.get (.str "*")
  let hostAssignment ← hostAssignments.get (.str currentHost)
  let wildcardAssignment := wildcardAssignment.getD (.dict [])
  let hostAssignment := hostAssignment.getD (.dict [])
  if wildcardAssignment.isDict = false ∨ hostAssignment.isDict = false then .ok (.dict [])
  else mergeConfig wildcardAssignment hostAssignment none

/-- The node list `build_launch_actions` iterates: `active_nodes`. -/
def activeNodes (deployedData : Value) (currentHost : String) : Except PyError Value := do
  let allHostAssignments ← deployedData.get (.str "host_assignments")
  let thisHostConfig ← getHostAssignment (allHostAssignments.getD (.dict [])) currentHost
  let nodes ← thisHostConfig.get (.str "nodes")
  .ok (nodes.getD (.list []))

/-! ## The resolved node list -/

/-- The entry of a host in a deployment map. -/
def hostEntry (deployment : Value) (host : String) : Option Value :=
  deployment.path [.str "host_assignments", .str host]

/-- The `nodes` value of a host in a deployment map. -/
def hostNodes (deployment : Value) (host : String) : Option Value :=
  deployment.path [.str "host_assignments", .str host, .str "nodes"]

theorem hostNodes_eq (deployment : Value) (host : String) :
    hostNodes deployment host = (hostEntry deployment host).bind (·.field (.str "nodes")) := by
  rw [hostNodes, hostEntry, show ([.str "host_assignments", .str host, .str "nodes"] : List Key) =
    [.str "host_assignments", .str host] ++ [.str "nodes"] from rfl, Value.path_append]
  cases deployment.path [.str "host_assignments", .str host] with
  | none => rfl
  | some v => simp [Value.path_cons]

/-- The assignment of a host: nothing if an entry is no mapping, and otherwise the host's entry merged
onto the `*` entry. -/
theorem getHostAssignment_ok {hostAssignments assignment : Value} {host : String}
    (h : getHostAssignment hostAssignments host = .ok assignment) :
    let wildcard := (hostAssignments.field (.str "*")).getD (.dict [])
    let own := (hostAssignments.field (.str host)).getD (.dict [])
    ((wildcard.isDict = false ∨ own.isDict = false) ∧ assignment = .dict []) ∨
      (wildcard.isDict = true ∧ own.isDict = true ∧ mergeConfig wildcard own none = .ok assignment) := by
  intro wildcard own
  unfold getHostAssignment at h
  obtain ⟨w, hw, h⟩ := bind_ok.mp h
  obtain ⟨o, ho, h⟩ := bind_ok.mp h
  obtain rfl := Value.field_of_get hw
  obtain rfl := Value.field_of_get ho
  dsimp only at h
  split_ifs at h with hnot
  · exact .inl ⟨hnot, (Except.ok.inj h).symm⟩
  · push Not at hnot
    exact .inr ⟨eq_true_of_ne_false hnot.1, eq_true_of_ne_false hnot.2, h⟩

theorem field_hostAssignments (deployment : Value) (k : String) :
    ((deployment.field (.str "host_assignments")).getD (.dict [])).field (.str k) =
      hostEntry deployment k := by
  rw [hostEntry, Value.path_cons]
  cases deployment.field (.str "host_assignments") with
  | none => rfl
  | some v => simp [Value.path_cons]

theorem field_nodes (deployment : Value) (k : String) :
    ((hostEntry deployment k).getD (.dict [])).field (.str "nodes") = hostNodes deployment k := by
  rw [hostNodes_eq]
  cases hostEntry deployment k <;> rfl

/-- The node list of a host: nothing if an entry is no mapping, the `*` list if the host has none,
and otherwise the host's list merged onto it. -/
theorem activeNodes_ok {deployment nodes : Value} {host : String} (hwf : deployment.WF)
    (h : activeNodes deployment host = .ok nodes) :
    let wildcard := (hostEntry deployment "*").getD (.dict [])
    let own := (hostEntry deployment host).getD (.dict [])
    ((wildcard.isDict = false ∨ own.isDict = false) ∧ nodes = .list []) ∨
      (wildcard.isDict = true ∧ own.isDict = true ∧
        ((hostNodes deployment host = none ∧ nodes = (hostNodes deployment "*").getD (.list [])) ∨
          ∃ x, hostNodes deployment host = some x ∧
            mergeConfig ((hostNodes deployment "*").getD .null) x (some (.str "nodes")) =
              .ok nodes)) := by
  intro wildcard own
  rw [activeNodes, bind_ok] at h
  obtain ⟨assignments, hget, h⟩ := h
  obtain ⟨config, hconfig, h⟩ := bind_ok.mp h
  obtain ⟨field, hfield, h⟩ := bind_ok.mp h
  obtain rfl := Except.ok.inj h
  obtain rfl := Value.field_of_get hget
  obtain rfl := Value.field_of_get hfield
  have hcases := getHostAssignment_ok hconfig
  simp only [field_hostAssignments] at hcases
  rcases hcases with ⟨hnot, rfl⟩ | ⟨hwd, hod, hmerge⟩
  · exact .inl ⟨hnot, rfl⟩
  · refine .inr ⟨hwd, hod, ?_⟩
    have howf : own.WF := by
      cases he : hostEntry deployment host with
      | none => simp [own, he, Value.wf_dict_iff]
      | some v => simpa [own, he] using hwf.path he
    obtain ⟨-, hnone, hsome⟩ := mergeConfig_field howf hod hmerge (.str "nodes")
    cases hx : hostNodes deployment host with
    | none =>
      refine .inl ⟨rfl, ?_⟩
      rw [hnone ((field_nodes deployment host).trans hx), field_nodes]
    | some x =>
      obtain ⟨y, hy, hc⟩ := hsome x ((field_nodes deployment host).trans hx)
      rw [field_nodes] at hy
      rw [hc]
      exact .inr ⟨x, rfl, hy⟩

/-! ## What is left of a name -/

/-- How many items of a name one overlay item of the name leaves: a removal takes one away, any other
item makes sure there is one. -/
def countStep (count : Nat) (remove : Bool) : Nat := if remove then count - 1 else max count 1

/-- How many items of a name a sequence of overlay items leaves. -/
def countAfter (count : Nat) (removes : List Bool) : Nat := removes.foldl countStep count

theorem applyNamed_length {items r : List Value} {ov : Value} (h : applyNamed items ov = .ok r) :
    r.length = countStep items.length (isRemove ov) := by
  rw [applyNamed] at h
  rw [countStep]
  split_ifs at h ⊢ with hremove
  · cases h
    simp
  · cases hlast : items.getLast? with
    | none =>
      rw [hlast] at h
      cases h
      rw [List.getLast?_eq_none_iff] at hlast
      simp [hlast]
    | some old =>
      rw [hlast] at h
      obtain ⟨v, _, h⟩ := bind_ok.mp h
      cases h
      have hne : items ≠ [] := by
        rintro rfl
        cases hlast
      have := List.length_pos_iff.mpr hne
      rw [List.length_append, List.length_dropLast, List.length_singleton]
      omega

theorem foldlM_applyNamed_length {ovs : List Value} : ∀ {items r : List Value},
    ovs.foldlM applyNamed items = .ok r → r.length = countAfter items.length (ovs.map isRemove) := by
  induction ovs with
  | nil =>
    intro items r h
    cases h
    rfl
  | cons ov ovs ih =>
    intro items r h
    rw [List.foldlM_cons, bind_ok] at h
    obtain ⟨mid, hmid, h⟩ := h
    rw [ih h, applyNamed_length hmid]
    rfl

theorem countAfter_le_one_iff {removes : List Bool} : ∀ {count : Nat},
    countAfter count removes ≤ 1 ↔ count ≤ removes.count true + 1 := by
  induction removes with
  | nil => intro count; simp [countAfter]
  | cons remove removes ih =>
    intro count
    rw [countAfter, List.foldl_cons, ← countAfter, ih, countStep]
    cases remove <;> simp

/-- A sequence that ends with a removal leaves nothing exactly when it removes as often as the name
occurs. -/
theorem countAfter_eq_zero_iff {removes : List Bool} {count : Nat}
    (hlast : removes.getLast? = some true) :
    countAfter count removes = 0 ↔ count ≤ removes.count true := by
  obtain ⟨init, rfl⟩ := List.getLast?_eq_some_iff.mp hlast
  have hstep : countAfter count (init ++ [true]) = countAfter count init - 1 := by
    simp [countAfter, countStep]
  have hone : countAfter count init ≤ 1 ↔ count ≤ init.count true + 1 := countAfter_le_one_iff
  have hcount : (init ++ [true]).count true = init.count true + 1 := by simp
  omega

/-! ## Removal -/

/-- The node names of a list are pairwise distinct. -/
def UniqueNames (nodes : List Value) : Prop := ∀ n, n ≠ .none → (named n nodes).length ≤ 1

/-- The number of items of a name in a `nodes` value of the baseline after the scenario's `nodes`
value has been merged into it; nothing where that gives no list. -/
def namedCount (n : Key) (base overlay : Option Value) : Option Nat :=
  match overlay, base with
  | none, some (.list bs) => some (named n bs).length
  | none, _ => none
  | some (.list os), some (.list bs) =>
      some (countAfter (named n bs).length ((named n os).map isRemove))
  | some (.list os), _ => some (named n os).length
  | some _, _ => none

/-- Where a removal in the scenario's list of a host reaches the launched nodes: the `*` entry is no
mapping, or the baseline has a list for the host and the `*` list does not name the node, or it has
none and the scenario's list removes the node as often as the `*` list names it. -/
def RemovalReaches (baseline overlay : Value) (host : String) (n : Key) (items : List Value) : Prop :=
  (((hostEntry overlay "*").or (hostEntry baseline "*")).getD (.dict [])).isDict = false ∨
    let wildcard := namedCount n (hostNodes baseline "*") (hostNodes overlay "*")
    match hostNodes baseline host with
    | some (.list _) => wildcard.getD 0 = 0
    | _ => ∃ count, wildcard = some count ∧ count ≤ ((named n items).map isRemove).count true

theorem mergeConfig_nodes {b w : Value} {os : List Value}
    (h : mergeConfig b (.list os) (some (.str "nodes")) = .ok w) :
    ∃ l, w = .list l ∧ ((∃ bs, b = .list bs ∧ mergeNamedLists bs os = .ok l) ∨
      ((∀ bs, b ≠ .list bs) ∧ l = os)) := by
  cases b with
  | list bs =>
    rw [mergeConfig_list _ _ (.inl rfl), bind_ok] at h
    obtain ⟨l, hl, h⟩ := h
    cases h
    exact ⟨l, rfl, .inl ⟨bs, rfl, hl⟩⟩
  | _ =>
    rw [mergeConfig] at h
    · cases h
      exact ⟨os, rfl, .inr ⟨by simp, rfl⟩⟩
    · simp

theorem namedCount_merged {n : Key} (hn : n ≠ .none) {base overlay merged : Option Value}
    (hwf : ∀ v, overlay = some v → v.WF)
    (hsome : ∀ x, overlay = some x → ∃ w,
      mergeConfig (base.getD .null) x (some (.str "nodes")) = .ok w ∧ merged = some w)
    (hnone : overlay = none → merged = base) :
    namedCount n base overlay = namedCount n merged none := by
  cases overlay with
  | none => rw [hnone rfl]
  | some x =>
    obtain ⟨w, hw, rfl⟩ := hsome x rfl
    cases x with
    | list os =>
      obtain ⟨l, rfl, ⟨bs, hbs, hl⟩ | ⟨hbs, rfl⟩⟩ := mergeConfig_nodes hw
      · have hbase : base = some (.list bs) := by
          cases base with
          | none => cases hbs
          | some b => rw [← hbs]; rfl
        have hmerged := mergeNamedLists_named hn (Value.wf_list_iff.mp (hwf _ rfl)) hl
        rw [hbase, namedCount, namedCount, foldlM_applyNamed_length hmerged]
      · cases base with
        | none => rfl
        | some b =>
          cases b with
          | list bs => exact absurd rfl (hbs bs)
          | _ => rfl
    | scalar s =>
      rw [mergeConfig] at hw
      cases hw
      rfl
    | dict d =>
      cases hbd : (base.getD .null).isDict with
      | false =>
        rw [mergeConfig_of_not_dict hbd] at hw
        cases hw
        rfl
      | true =>
        obtain ⟨b, hb⟩ := Value.isDict_iff.mp hbd
        rw [hb, mergeConfig_dict, bind_ok] at hw
        obtain ⟨m, _, hw⟩ := hw
        cases hw
        rfl

section Scenario
variable {baseline overlay merged : Value}

theorem hostNodes_merged_some (hwf : overlay.WF) (hm : mergeConfig baseline overlay none = .ok merged)
    {host : String} {x : Value} (hx : hostNodes overlay host = some x) :
    ∃ w, mergeConfig ((hostNodes baseline host).getD .null) x (some (.str "nodes")) = .ok w ∧
      hostNodes merged host = some w :=
  mergeConfig_path_some [.str "host_assignments", .str host] (.str "nodes") hwf hm hx

theorem open_of_hostEntry {host : String} {e : Value} (he : hostEntry overlay host = some e) :
    ∀ p y, p <+: [Key.str "host_assignments"] → overlay.path p = some y → y.isDict = true := by
  intro p y hp hy
  rw [hostEntry, Value.path_cons, Option.bind_eq_some_iff] at he
  obtain ⟨a, ha, he⟩ := he
  rw [List.prefix_cons_iff] at hp
  rcases hp with rfl | ⟨t, rfl, ht⟩
  · cases hy
    exact Value.isDict_of_field ha
  · rw [List.prefix_nil.mp ht, Value.path_cons, ha] at hy
    cases hy
    rw [Value.path_cons, Option.bind_eq_some_iff] at he
    obtain ⟨_, he, _⟩ := he
    exact Value.isDict_of_field he

theorem hostNodes_merged_none (hwf : overlay.WF) (hm : mergeConfig baseline overlay none = .ok merged)
    {host : String}
    (hopen : ∀ p y, p <+: [Key.str "host_assignments"] → overlay.path p = some y → y.isDict = true)
    (hdict : ∀ y, hostEntry overlay host = some y → y.isDict = true)
    (hx : hostNodes overlay host = none) : hostNodes merged host = hostNodes baseline host := by
  refine mergeConfig_path_none [.str "host_assignments", .str host] (.str "nodes") hwf hm hx ?_
  intro p y hp hy
  rw [show ([.str "host_assignments", .str host] : List Key) =
    [.str "host_assignments"] ++ [.str host] from rfl, List.prefix_concat_iff] at hp
  rcases hp with rfl | hp
  · exact hdict y hy
  · exact hopen p y hp hy

/-- Whether a merged entry is a mapping is decided by the last layer that has one. -/
theorem entry_isDict (hwf : overlay.WF) (hm : mergeConfig baseline overlay none = .ok merged)
    (hopen : ∀ p y, p <+: [Key.str "host_assignments"] → overlay.path p = some y → y.isDict = true)
    (host : String) :
    ((hostEntry merged host).getD (.dict [])).isDict =
      (((hostEntry overlay host).or (hostEntry baseline host)).getD (.dict [])).isDict := by
  cases hx : hostEntry overlay host with
  | none =>
    have : hostEntry merged host = hostEntry baseline host :=
      mergeConfig_path_none [.str "host_assignments"] (.str host) hwf hm hx hopen
    rw [this, Option.none_or]
  | some x =>
    obtain ⟨w, hw, hmw⟩ := mergeConfig_path_some [.str "host_assignments"] (.str host) hwf hm hx
    rw [show hostEntry merged host = some w from hmw, Option.some_or, Option.getD_some,
      Option.getD_some]
    exact mergeConfig_isDict hw

end Scenario

theorem named_merged_nil_iff {n : Key} (hn : n ≠ .none) {base : Option Value} {ws os : List Value}
    (hwf : ∀ v ∈ os, v.WF)
    (h : mergeConfig (base.getD .null) (.list os) (some (.str "nodes")) = .ok (.list ws)) :
    named n ws = [] ↔ namedCount n base (some (.list os)) = some 0 := by
  obtain ⟨l, hl, ⟨bs, hbs, hmerge⟩ | ⟨hbs, rfl⟩⟩ := mergeConfig_nodes h
  · cases hl
    have hlen := foldlM_applyNamed_length (mergeNamedLists_named hn hwf hmerge)
    have hbase : base = some (.list bs) := by
      cases base with
      | none => cases hbs
      | some b => rw [← hbs]; rfl
    rw [hbase, namedCount, ← hlen, Option.some.injEq, List.length_eq_zero_iff]
  · cases hl
    have hcount : namedCount n base (some (.list ws)) = some (named n ws).length := by
      cases base with
      | none => rfl
      | some b =>
        cases b with
        | list bs => exact absurd rfl (hbs bs)
        | _ => rfl
    rw [hcount, Option.some.injEq, List.length_eq_zero_iff]

/-- **Scenario removal.** For a list of the scenario whose last item of a name is a removal, the
launched node list is rid of the name exactly where `RemovalReaches` says so. -/
theorem removal_takes_effect_iff (baseline overlay merged : Yaml) (host n : String)
    (hunique : ∀ k l, hostNodes baseline k = some (.list l) → UniqueNames l)
    {items : List Value} (hitems : hostNodes overlay host = some (.list items))
    {last : Value} (hlast : (named (.str n) items).getLast? = some last) (hremove : isRemove last = true)
    (hm : mergeConfig baseline overlay none = .ok merged.val)
    {nodes : Value} (hnodes : activeNodes merged host = .ok nodes) :
    named (.str n) nodes.elements = [] ↔ RemovalReaches baseline overlay host (.str n) items := by
  have hn : Key.str n ≠ .none := by simp
  obtain ⟨e, he, _⟩ := Option.bind_eq_some_iff.mp ((hostNodes_eq overlay.val host) ▸ hitems)
  have hitemswf : ∀ v ∈ items, v.WF := Value.wf_list_iff.mp (overlay.2.path hitems)
  have hflags : ((named (.str n) items).map isRemove).getLast? = some true := by
    rw [List.getLast?_map, hlast, Option.map_some, hremove]
  -- the host's own list after the scenario
  obtain ⟨own, hown, hmown⟩ := hostNodes_merged_some overlay.2 hm hitems
  obtain ⟨own, rfl, hcases⟩ := mergeConfig_nodes hown
  have hownwf : ∀ v ∈ own, v.WF := Value.wf_list_iff.mp (merged.2.path hmown)
  have hwild := entry_isDict overlay.2 hm (open_of_hostEntry he) "*"
  rw [RemovalReaches, ← hwild]
  rcases activeNodes_ok merged.2 hnodes with ⟨hnot, rfl⟩ | ⟨hwd, _, ⟨hnone, _⟩ | ⟨x, hx, hfinal⟩⟩
  · -- an entry is no mapping: it can only be the `*` entry
    have hown : ((hostEntry merged.val host).getD (.dict [])).isDict = true := by
      obtain ⟨y, hy, hyn⟩ := Option.bind_eq_some_iff.mp ((hostNodes_eq merged.val host) ▸ hmown)
      rw [hy]
      exact Value.isDict_of_field hyn
    simp only [hown, Bool.true_eq_false, or_false] at hnot
    simp [hnot, named]
  · rw [hmown] at hnone
    cases hnone
  · rw [hmown] at hx
    cases hx
    have hopen : ∀ y, hostEntry overlay.val "*" = some y → y.isDict = true := by
      intro y hy
      rw [hwild, hy, Option.some_or] at hwd
      exact hwd
    have hwildCount : namedCount (.str n) (hostNodes baseline.val "*") (hostNodes overlay.val "*") =
        namedCount (.str n) (hostNodes merged.val "*") none :=
      namedCount_merged hn (fun v hv => overlay.2.path hv)
        (fun x hx => hostNodes_merged_some overlay.2 hm hx)
        (fun hx => hostNodes_merged_none overlay.2 hm (open_of_hostEntry he) hopen hx)
    obtain ⟨ws, rfl, _⟩ := mergeConfig_nodes hfinal
    rw [hwildCount, hwd, Value.elements_list, named_merged_nil_iff hn hownwf hfinal]
    simp only [Bool.true_eq_false, false_or]
    rcases hcases with ⟨bs, hbs, hmerge⟩ | ⟨hbs, rfl⟩
    · -- the scenario's list was merged into the baseline's, and its removals are spent
      have hbase : hostNodes baseline.val host = some (.list bs) := by
        cases hb : hostNodes baseline.val host with
        | none => rw [hb] at hbs; cases hbs
        | some b => rw [hb] at hbs; rw [← hbs]; rfl
      have hlen := foldlM_applyNamed_length (mergeNamedLists_named hn hitemswf hmerge)
      have hle := hunique host bs hbase (.str n) hn
      have hpos : 0 < ((named (.str n) items).map isRemove).count true :=
        List.count_pos_iff.mpr (List.mem_of_getLast? hflags)
      rw [(countAfter_eq_zero_iff hflags).mpr (by omega), List.length_eq_zero_iff] at hlen
      rw [hbase]
      cases hostNodes merged.val "*" with
      | none => simp [namedCount, hlen]
      | some w => cases w <;> simp [namedCount, hlen, countAfter]
    · -- the scenario's list stands as it is, and its removals act on the `*` list
      have hbase : ∀ bs, hostNodes baseline.val host ≠ some (.list bs) := by
        intro bs hb
        exact hbs bs (by rw [hb]; rfl)
      have hne : named (.str n) own ≠ [] := by
        intro h
        rw [h] at hlast
        cases hlast
      have hcore : namedCount (.str n) (hostNodes merged.val "*") (some (.list own)) = some 0 ↔
          ∃ count, namedCount (.str n) (hostNodes merged.val "*") none = some count ∧
            count ≤ ((named (.str n) own).map isRemove).count true := by
        cases hostNodes merged.val "*" with
        | none => simp [namedCount, hne]
        | some w => cases w <;> simp [namedCount, hne, countAfter_eq_zero_iff hflags]
      cases hb : hostNodes baseline.val host with
      | none => exact hcore
      | some b =>
        cases b with
        | list bs => exact absurd hb (hbase bs)
        | _ => exact hcore

/-- A deployment that runs the IMU node everywhere and the servo node on one computer. -/
def wildcardImuDeployment : Yaml :=
  ⟨.mapping [("host_assignments", .mapping
    [("*", .mapping [("nodes", .list [.mapping [("name", .str "imu_node1")]])]),
     ("DevComputer2", .mapping [("nodes", .list [.mapping [("name", .str "servo_hat_node")]])])])],
    by simp [Value.mapping, Value.wf_dict_iff, Value.wf_list_iff]⟩

/-- A scenario item that removes the IMU node. -/
def removeImu : Value := .mapping [("name", .str "imu_node1"), ("remove", .scalar (.bool true))]

/-- A scenario that removes the IMU node from one computer. -/
def removeImuScenario : Yaml :=
  ⟨.mapping [("host_assignments", .mapping
    [("DevComputer2", .mapping [("nodes", .list [removeImu])])])],
    by simp [removeImu, Value.mapping, Value.wf_dict_iff, Value.wf_list_iff]⟩

/-- The baseline has a list for the computer, so the scenario's removal is spent on that list and
the node of the `*` list is launched. -/
theorem removed_imu_still_active :
    hostNodes removeImuScenario "DevComputer2" = some (.list [removeImu]) ∧
      (named (.str "imu_node1") [removeImu]).getLast? = some removeImu ∧ isRemove removeImu = true ∧
      ∃ merged nodes, mergeConfig wildcardImuDeployment removeImuScenario none = .ok merged ∧
        activeNodes merged "DevComputer2" = .ok nodes ∧
        named (.str "imu_node1") nodes.elements ≠ [] := by
  refine ⟨rfl, rfl, rfl, _, _, rfl, rfl, ?_⟩
  decide

/-- A deployment that runs the IMU node everywhere and says nothing else. -/
def imuEverywhere : Yaml :=
  ⟨.mapping [("host_assignments", .mapping
    [("*", .mapping [("nodes", .list [.mapping [("name", .str "imu_node1")]])])])],
    by simp [Value.mapping, Value.wf_dict_iff, Value.wf_list_iff]⟩

/-- Without a list of its own, the computer's removal reaches the `*` list. -/
theorem removed_imu_inactive : ∃ (merged : Yaml) (nodes : Value),
    mergeConfig imuEverywhere removeImuScenario none = .ok merged.val ∧
      activeNodes merged "DevComputer2" = .ok nodes ∧
      named (.str "imu_node1") nodes.elements = [] := by
  have hunique : ∀ k l, hostNodes imuEverywhere k = some (.list l) → UniqueNames l := by
    intro k l hl
    by_cases hk : k = "*"
    · subst hk
      cases hl
      exact fun n _ => List.length_filter_le ..
    · have hnone : hostNodes imuEverywhere k = none := by
        simp [hostNodes, imuEverywhere, Value.mapping, Value.path_cons, Ne.symm hk]
      rw [hnone] at hl
      cases hl
  obtain ⟨m, hm⟩ : ∃ m, mergeConfig imuEverywhere removeImuScenario none = .ok m := ⟨_, rfl⟩
  have hwf : m.WF := mergeConfig_wf imuEverywhere.2 removeImuScenario.2 hm
  obtain ⟨nodes, hnodes⟩ : ∃ nodes, activeNodes m "DevComputer2" = .ok nodes := by
    cases hm
    exact ⟨_, rfl⟩
  refine ⟨⟨m, hwf⟩, nodes, hm, hnodes, ?_⟩
  refine (removal_takes_effect_iff imuEverywhere removeImuScenario ⟨m, hwf⟩ "DevComputer2" "imu_node1"
    hunique rfl rfl rfl hm hnodes).mpr (.inr ?_)
  exact ⟨1, rfl, by decide⟩

end Orchestrator
