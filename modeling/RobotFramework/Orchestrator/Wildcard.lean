import RobotFramework.Orchestrator.Hosts

/-!
# The wildcard deployment

Which nodes of the `*` entry are in the node list of a host. A host's list only removes what it lists with
`remove: true` (`countAfter_pos`), but an entry that is no mapping, or a `nodes` value that is no list,
takes the place of the whole `*` list.
-/

namespace Orchestrator

open Python

/-- The node list of an assignment that `get_host_assignment` returns. -/
def assignedNodes (assignment : Value) : List Value :=
  ((assignment.field (.str "nodes")).getD (.list [])).elements

/-- The items of a host's own `nodes` list. -/
def ownItems (hostAssignments : Value) (host : String) : List Value :=
  ((hostAssignments.path [.str host, .str "nodes"]).getD (.list [])).elements

/-- The host's own entry lists a name with `remove: true`. -/
def RemovedByHost (hostAssignments : Value) (host : String) (n : Key) : Prop :=
  ∃ v ∈ ownItems hostAssignments host, itemName v = some n ∧ isRemove v = true

/-- Every node that the `*` list names is in the node list, unless the host's own entry removes it. -/
def WildcardKept (hostAssignments : Value) (host : String) (ws : List Value) (assignment : Value) :
    Prop :=
  ∀ n, n ≠ .none → named n ws ≠ [] → ¬ RemovedByHost hostAssignments host n →
    named n (assignedNodes assignment) ≠ []

/-- A host entry that leaves the `*` list in place: there is none, or it is a mapping whose `nodes` value,
if it has one, is a list. -/
def LeavesWildcard (hostAssignments : Value) (host : String) : Prop :=
  match hostAssignments.field (.str host) with
  | none => True
  | some entry => entry.isDict = true ∧
      match entry.field (.str "nodes") with
      | none => True
      | some nodes => ∃ os, nodes = .list os

theorem countAfter_pos {removes : List Bool} : ∀ {count : Nat}, 0 < count → true ∉ removes →
    0 < countAfter count removes := by
  induction removes with
  | nil => exact fun hcount _ => hcount
  | cons remove removes ih =>
    intro count hcount hremoves
    obtain ⟨hremove, hremoves⟩ := List.ne_and_not_mem_of_not_mem_cons hremoves
    apply ih _ hremoves
    rw [countStep, if_neg (Ne.symm hremove)]
    omega

theorem named_merge_ne_nil {n : Key} (hn : n ≠ .none) {base overlay r : List Value}
    (hwf : ∀ v ∈ overlay, v.WF) (h : mergeNamedLists base overlay = .ok r)
    (hbase : named n base ≠ []) (hremove : ∀ v ∈ named n overlay, isRemove v = false) :
    named n r ≠ [] := by
  have hlength := foldlM_applyNamed_length (mergeNamedLists_named hn hwf h)
  have hpos : 0 < countAfter (named n base).length ((named n overlay).map isRemove) := by
    apply countAfter_pos (List.length_pos_iff.mpr hbase)
    intro hmem
    obtain ⟨v, hv, hvr⟩ := List.mem_map.mp hmem
    rw [hremove v hv] at hvr
    exact Bool.noConfusion hvr
  rw [← hlength] at hpos
  exact List.length_pos_iff.mp hpos

section Resolved
variable {hostAssignments assignment wildcard : Value} {host : String} {ws : List Value}

theorem assignment_of_wildcard (hstar : hostAssignments.field (.str "*") = some wildcard)
    (hdict : wildcard.isDict = true) (h : getHostAssignment hostAssignments host = .ok assignment) :
    let own := (hostAssignments.field (.str host)).getD (.dict [])
    (own.isDict = false ∧ assignment = .dict []) ∨
      (own.isDict = true ∧ mergeConfig wildcard own none = .ok assignment) := by
  have hcases := getHostAssignment_ok h
  rw [hstar, Option.getD_some] at hcases
  rcases hcases with ⟨hnot | hnot, rfl⟩ | ⟨-, hown, hmerge⟩
  · rw [hdict] at hnot
    exact Bool.noConfusion hnot
  · exact .inl ⟨hnot, rfl⟩
  · exact .inr ⟨hown, hmerge⟩

theorem ownItems_of_entry {entry : Value} (hentry : hostAssignments.field (.str host) = some entry) :
    ownItems hostAssignments host = assignedNodes entry := by
  unfold ownItems assignedNodes
  rw [Value.path_cons, hentry, Option.bind_some, Value.path_cons]
  cases entry.field (.str "nodes") <;> rfl

/-- An entry that takes the place of the `*` list leaves no node at all. -/
theorem assignedNodes_of_not_leaves (hwf : hostAssignments.WF)
    (hstar : hostAssignments.field (.str "*") = some wildcard)
    (hnodes : wildcard.field (.str "nodes") = some (.list ws))
    (h : getHostAssignment hostAssignments host = .ok assignment)
    (hnot : ¬ LeavesWildcard hostAssignments host) :
    assignedNodes assignment = [] ∧ ownItems hostAssignments host = [] := by
  unfold LeavesWildcard at hnot
  cases hentry : hostAssignments.field (.str host) with
  | none =>
    rw [hentry] at hnot
    exact absurd trivial hnot
  | some entry =>
    rw [ownItems_of_entry hentry]
    rw [hentry] at hnot
    have hcases := assignment_of_wildcard hstar (Value.isDict_of_field hnodes) h
    rw [hentry, Option.getD_some] at hcases
    rcases hcases with ⟨hown, rfl⟩ | ⟨hown, hmerge⟩
    · unfold assignedNodes
      rw [Value.field_of_not_dict hown]
      exact ⟨rfl, rfl⟩
    · obtain ⟨-, -, hsome⟩ := mergeConfig_field (hwf.field hentry) hown hmerge (.str "nodes")
      cases hx : entry.field (.str "nodes") with
      | none => simp [hown, hx] at hnot
      | some x =>
        obtain ⟨w, hw, hfield⟩ := hsome x hx
        unfold assignedNodes
        rw [hfield, hx]
        rw [hnodes] at hw
        cases x with
        | list os => simp [hown, hx] at hnot
        | scalar s =>
          rw [mergeConfig] at hw
          obtain rfl := Except.ok.inj hw
          exact ⟨rfl, rfl⟩
        | dict o =>
          rw [Option.getD_some, mergeConfig_of_not_dict rfl] at hw
          obtain rfl := Except.ok.inj hw
          exact ⟨rfl, rfl⟩

theorem wildcardKept_of_leaves (hwf : hostAssignments.WF)
    (hstar : hostAssignments.field (.str "*") = some wildcard)
    (hnodes : wildcard.field (.str "nodes") = some (.list ws))
    (h : getHostAssignment hostAssignments host = .ok assignment)
    (hleaves : LeavesWildcard hostAssignments host) :
    WildcardKept hostAssignments host ws assignment := by
  intro n hn hnamed hnot
  have hown : ((hostAssignments.field (.str host)).getD (.dict [])).isDict = true := by
    unfold LeavesWildcard at hleaves
    cases hentry : hostAssignments.field (.str host) with
    | none => rfl
    | some entry =>
      rw [hentry] at hleaves
      exact hleaves.1
  have hownWf : ((hostAssignments.field (.str host)).getD (.dict [])).WF := by
    cases hentry : hostAssignments.field (.str host) with
    | none => simp [Value.wf_dict_iff]
    | some entry => exact hwf.field hentry
  obtain ⟨hfalse, -⟩ | ⟨-, hmerge⟩ :=
    assignment_of_wildcard hstar (Value.isDict_of_field hnodes) h
  · rw [hown] at hfalse
    exact Bool.noConfusion hfalse
  obtain ⟨-, hnone, hsome⟩ := mergeConfig_field hownWf hown hmerge (.str "nodes")
  unfold assignedNodes
  cases hx : ((hostAssignments.field (.str host)).getD (.dict [])).field (.str "nodes") with
  | none =>
    rw [hnone hx, hnodes]
    exact hnamed
  | some x =>
    obtain ⟨w, hw, hfield⟩ := hsome x hx
    cases hentry : hostAssignments.field (.str host) with
    | none => simp [hentry] at hx
    | some entry =>
      rw [hentry, Option.getD_some] at hx hownWf
      unfold LeavesWildcard at hleaves
      simp only [hentry, hx] at hleaves
      obtain ⟨-, os, rfl⟩ := hleaves
      rw [hnodes, Option.getD_some, mergeConfig_list _ _ (.inl rfl), bind_ok] at hw
      obtain ⟨l, hl, hw⟩ := hw
      obtain rfl := Except.ok.inj hw
      rw [hfield]
      have hos : ∀ v ∈ os, v.WF := Value.wf_list_iff.mp (hownWf.field hx)
      apply named_merge_ne_nil hn hos hl hnamed
      intro v hv
      have hmem := List.mem_filter.mp hv
      apply Bool.of_not_eq_true
      intro hremove
      refine hnot ⟨v, ?_, of_decide_eq_true hmem.2, hremove⟩
      rw [ownItems_of_entry hentry]
      unfold assignedNodes
      rw [hx]
      exact hmem.1

end Resolved

/-- **The wildcard deployment.** The node list that is resolved for a host has every node that the `*`
list names and the host does not remove, exactly if the `*` list names none or the host's entry leaves it
in place. -/
theorem wildcardKept_iff (hostAssignments : Yaml) (host : String) {ws : List Value}
    (hws : hostAssignments.val.path [.str "*", .str "nodes"] = some (.list ws)) {assignment : Value}
    (h : getHostAssignment hostAssignments host = .ok assignment) :
    WildcardKept hostAssignments host ws assignment ↔
      (∀ n, n ≠ .none → named n ws = []) ∨ LeavesWildcard hostAssignments host := by
  rw [Value.path_cons, Option.bind_eq_some_iff] at hws
  obtain ⟨wildcard, hstar, hnodes⟩ := hws
  rw [Value.path_cons, Option.bind_eq_some_iff] at hnodes
  obtain ⟨nodes, hnodes, hlist⟩ := hnodes
  obtain rfl := Option.some.inj hlist
  by_cases hleaves : LeavesWildcard hostAssignments host
  · exact iff_of_true (wildcardKept_of_leaves hostAssignments.2 hstar hnodes h hleaves) (.inr hleaves)
  · obtain ⟨hempty, hown⟩ := assignedNodes_of_not_leaves hostAssignments.2 hstar hnodes h hleaves
    constructor
    · intro hkept
      left
      intro n hn
      by_contra hnamed
      apply hkept n hn hnamed
      · rintro ⟨v, hv, -⟩
        rw [hown] at hv
        exact absurd hv List.not_mem_nil
      · rw [hempty]
        rfl
    · rintro (hnone | htrue)
      · exact fun n hn hnamed => absurd (hnone n hn) hnamed
      · exact absurd htrue hleaves

/-- Host assignments that run the IMU node everywhere, with an entry for one computer. -/
def imuAssignments (entry : Value) (hwf : entry.WF) : Yaml :=
  ⟨.mapping [("*", .mapping [("nodes", .list [.mapping [("name", .str "imu_node1")]])]),
    ("DevComputer2", entry)],
    by simp [Value.mapping, Value.wf_dict_iff, Value.wf_list_iff, hwf]⟩

/-- A computer with a list of its own runs the IMU node too. -/
theorem servo_entry_keeps_wildcard : ∃ (assignments : Yaml) (assignment : Value),
    getHostAssignment assignments "DevComputer2" = .ok assignment ∧
      WildcardKept assignments "DevComputer2" [.mapping [("name", .str "imu_node1")]] assignment := by
  refine ⟨imuAssignments (.mapping [("nodes", .list [.mapping [("name", .str "servo_hat_node")]])])
    (by simp [Value.mapping, Value.wf_dict_iff, Value.wf_list_iff]), _, rfl, ?_⟩
  exact (wildcardKept_iff _ "DevComputer2" rfl rfl).mpr (.inr ⟨rfl, _, rfl⟩)

theorem nullNodes_wf : (Value.mapping [("nodes", .null)]).WF := by
  simp [Value.mapping, Value.wf_dict_iff]

/-- An entry that is left empty, or an empty `nodes` key in it, drops the IMU node. -/
theorem empty_entry_drops_wildcard :
    UniqueNames [.mapping [("name", .str "imu_node1")]] ∧
    (∃ assignment, getHostAssignment (imuAssignments .null (by simp)) "DevComputer2" = .ok assignment ∧
      ¬ WildcardKept (imuAssignments .null (by simp)) "DevComputer2"
        [.mapping [("name", .str "imu_node1")]] assignment) ∧
    ∃ assignment, getHostAssignment
        (imuAssignments (.mapping [("nodes", .null)]) nullNodes_wf)
        "DevComputer2" = .ok assignment ∧
      ¬ WildcardKept
        (imuAssignments (.mapping [("nodes", .null)]) nullNodes_wf)
        "DevComputer2" [.mapping [("name", .str "imu_node1")]] assignment := by
  refine ⟨fun n _ => List.length_filter_le .., ⟨_, rfl, ?_⟩, ⟨_, rfl, ?_⟩⟩
  · intro hkept
    refine hkept (.str "imu_node1") (by decide) (by decide) ?_ rfl
    rintro ⟨v, hv, -⟩
    exact absurd hv List.not_mem_nil
  · intro hkept
    refine hkept (.str "imu_node1") (by decide) (by decide) ?_ rfl
    rintro ⟨v, hv, -⟩
    exact absurd hv List.not_mem_nil

end Orchestrator
