import RobotFramework.Orchestrator.Precedence

/-!
# What a launch runs

The actions of a launch are those of the active nodes, in their order, as far as the registry has an
implementation for them. A scenario may add nodes, take them away and tune their parameters; but whatever it
puts in its registry, a node of the baseline runs what the baseline says (`launched_nodes`). An overlay that
the validator lets through by one of its gaps leaves no action of the node at all, or no launch.
-/

namespace Orchestrator

open Python

/-- What an action runs. -/
inductive Implementation where
  | launchFile (xmlAbsolutePath : String)
  | executable (package executable : Value)

def LaunchAction.implementation : LaunchAction → Implementation
  | .includeLaunchDescription xmlAbsolutePath _ => .launchFile xmlAbsolutePath
  | .node package executable _ _ _ => .executable package executable

/-- The namespace an action starts its node in. -/
def LaunchAction.robotNamespace : LaunchAction → Option LaunchValue
  | .includeLaunchDescription _ launchArguments => launchArguments.get (.str "robot_namespace")
  | .node _ _ _ namespaceValue _ => some namespaceValue

/-- What a registry entry says to run, if it says anything. -/
def implementationOf (env : Environment) (nodeDef : Value) : Except PyError (Option Implementation) :=
  match nodeDef.field (.str "launch_file") with
  | some launchFile => do
      let share ← env.packageShare ((nodeDef.field (.str "package")).getD (.str "robot_framework_ros2"))
      let launchFile ← launchFile.asStr
      .ok (some (.launchFile (joinPath share launchFile)))
  | none => match nodeDef.field (.str "executable") with
      | some executable => do
          let package ← nodeDef.getItem (.str "package")
          .ok (some (.executable package executable))
      | none => .ok none

/-- The registry entry of a node item. -/
def definitionOf (nodeRegistry nodeItem : Value) : Option Value :=
  let targetName := (nodeItem.field (.str "name")).getD .null
  match nodeRegistry.isIn targetName with
  | .ok true => (nodeRegistry.item targetName).toOption
  | _ => none

/-- The name of a node and what the registry says to run for it. -/
def launched (env : Environment) (nodeRegistry nodeItem : Value) : Option (Option Key × Implementation) := do
  let nodeDef ← definitionOf nodeRegistry nodeItem
  let implementation ← (implementationOf env nodeDef).toOption.join
  return (itemName nodeItem, implementation)

/-! ## One node -/

section OneNode
variable {env : Environment} {registry item : Value} {namedMaps : NamedMaps}

theorem launchArgs_robotNamespace (defaults : Dict String) (params : Dict Value) (name : Value) :
    (launchArgs env defaults params name).get (.str "robot_namespace") =
      some (.launchConfiguration "robot_namespace") :=
  Dict.get_set_self ..

theorem launchAction_cases {action : Option LaunchAction}
    (h : launchAction env registry namedMaps item = .ok action) :
    (definitionOf registry item = none ∧ action = none) ∨
      ∃ nodeDef, definitionOf registry item = some nodeDef ∧ nodeDef.isDict = true ∧
        implementationOf env nodeDef = .ok (action.map LaunchAction.implementation) ∧
        ∀ a ∈ action, a.robotNamespace = some (.launchConfiguration "robot_namespace") := by
  obtain ⟨o, ho, h⟩ := bind_ok.mp h
  obtain ⟨registered, hregistered, h⟩ := bind_ok.mp h
  have hname := Value.field_of_get ho
  split_ifs at h with hknown
  · cases h
    refine Or.inl ⟨?_, rfl⟩
    simp only [definitionOf, hname, hregistered, hknown]
  right
  obtain ⟨nodeDef, hdef, h⟩ := bind_ok.mp h
  obtain ⟨registryParams, hregistryParams, h⟩ := bind_ok.mp h
  refine ⟨nodeDef, ?_, Value.isDict_of_get hregistryParams, ?_⟩
  · rw [Bool.not_eq_false] at hknown
    simp only [definitionOf, hname, hregistered, hknown, hdef]
    rfl
  obtain ⟨_, _, h⟩ := bind_ok.mp h
  obtain ⟨_, _, h⟩ := bind_ok.mp h
  obtain ⟨_, _, h⟩ := bind_ok.mp h
  obtain ⟨_, _, h⟩ := bind_ok.mp h
  unfold implementationOf
  cases hfile : nodeDef.field (.str "launch_file") with
  | some file =>
    simp only [hfile] at h
    obtain ⟨share, hshare, h⟩ := bind_ok.mp h
    obtain ⟨launchFile, hlaunchFile, h⟩ := bind_ok.mp h
    obtain ⟨_, _, h⟩ := bind_ok.mp h
    cases h
    refine ⟨?_, fun a ha => ?_⟩
    · simp only [hshare, hlaunchFile]
      rfl
    · cases ha
      exact launchArgs_robotNamespace ..
  | none =>
    simp only [hfile] at h
    cases hexe : nodeDef.field (.str "executable") with
    | some executable =>
      simp only [hexe] at h
      obtain ⟨package, hpackage, h⟩ := bind_ok.mp h
      cases h
      refine ⟨?_, fun a ha => ?_⟩
      · simp only [hpackage]
        rfl
      · cases ha
        rfl
    | none =>
      simp only [hexe] at h
      cases h
      exact ⟨rfl, by simp⟩

theorem launchAction_launched {action : Option LaunchAction}
    (h : launchAction env registry namedMaps item = .ok action) :
    action.toList.map (fun a => (a.target, a.implementation)) = (launched env registry item).toList := by
  have htarget : ∀ a, action = some a → a.target = itemName item := by
    intro a ha
    rw [ha] at h
    exact launchAction_target h
  unfold launched
  rcases launchAction_cases h with ⟨hdef, rfl⟩ | ⟨nodeDef, hdef, -, himplementation, -⟩
  · simp [hdef]
  · cases action with
    | none => simp [hdef, himplementation, Except.toOption]
    | some a => simp [hdef, himplementation, Except.toOption, htarget a rfl]

theorem launchActions_launched {items : List Value} : ∀ {actions : List LaunchAction},
    launchActions env registry namedMaps items = .ok actions →
    actions.map (fun a => (a.target, a.implementation)) = items.filterMap (launched env registry) ∧
      ∀ a ∈ actions, ∃ item ∈ items, launchAction env registry namedMaps item = .ok (some a) := by
  induction items with
  | nil =>
    intro actions h
    cases h
    simp
  | cons item items ih =>
    intro actions h
    obtain ⟨action, haction, h⟩ := bind_ok.mp h
    obtain ⟨rest, hrest, h⟩ := bind_ok.mp h
    cases h
    obtain ⟨hmap, hmem⟩ := ih hrest
    constructor
    · rw [List.map_append, launchAction_launched haction, hmap]
      cases hitem : launched env registry item <;> simp [hitem]
    · intro a ha
      rcases List.mem_append.mp ha with hhead | htail
      · rw [Option.mem_toList] at hhead
        cases hhead
        exact ⟨item, by simp, haction⟩
      · obtain ⟨i, hi, h⟩ := hmem a htail
        exact ⟨i, by simp [hi], h⟩

end OneNode

/-! ## The scenario's registry -/

/-- The merged node has every protected field of the baseline node, and those it adds are null. -/
def Unchanged (node node' : Dict Value) : Prop :=
  ∀ f ∈ protectedFields, node'.get (.str f) = node.get (.str f) ∨
    (node.get (.str f) = none ∧ node'.get (.str f) = some .null)

def TextFields (node : Dict Value) : Prop :=
  ∀ f ∈ protectedFields, ∀ v, node.get (.str f) = some v → ∃ s : String, v = .str s

theorem eq_null_iff {v : Value} : v.eq .null = true ↔ v = .null := by
  cases v with
  | scalar s => cases s <;> simp [Value.eq, Value.null, Scalar.key]
  | _ => simp [Value.eq, Value.null]

theorem eq_str_iff {v : Value} {t : String} : v.eq (.str t) = true ↔ v = .str t := by
  cases v with
  | scalar s => simp [Value.eq, Value.str, Scalar.key_eq_str]
  | _ => simp [Value.eq, Value.str]

/-- What the validator lets through leaves the protected fields unchanged. -/
theorem unchanged_of_valid {node fields node' : Dict Value} {key : Option Key} (htext : TextFields node)
    (hfields : (Value.dict fields).WF) (h : mergeConfig (.dict node) (.dict fields) key = .ok (.dict node'))
    (hvalid : ∀ f ∈ protectedFields, ∀ v, fields.get (.str f) = some v →
      v.eq ((node.get (.str f)).getD .null) = true) : Unchanged node node' := by
  intro f hf
  obtain ⟨m, hm, hmget⟩ := mergeConfig_dict_get (Value.wf_dict_iff.mp hfields).1 h
  cases hm
  obtain ⟨habsent, hpresent⟩ := hmget (.str f)
  cases hv : fields.get (.str f) with
  | none => exact Or.inl (habsent hv)
  | some v =>
    obtain ⟨r, hr, hget⟩ := hpresent v hv
    have heq := hvalid f hf v hv
    cases hw : node.get (.str f) with
    | none =>
      rw [hw, Option.getD_none] at hr heq
      rw [mergeConfig_null] at hr
      cases hr
      exact Or.inr ⟨rfl, by rw [hget, eq_null_iff.mp heq]⟩
    | some w =>
      obtain ⟨s, rfl⟩ := htext f hf w hw
      rw [hw, Option.getD_some] at hr heq
      rw [eq_str_iff.mp heq, Value.str, mergeConfig] at hr
      cases hr
      exact Or.inl hget

theorem Unchanged.implementation {env : Environment} (hnull : ∀ share, env.packageShare .null ≠ .ok share)
    {node node' : Dict Value} (h : Unchanged node node') {implementation implementation' : Implementation}
    (hbase : implementationOf env (.dict node) = .ok (some implementation))
    (hmerged : implementationOf env (.dict node') = .ok (some implementation')) :
    implementation' = implementation := by
  have hpackage := h "package" (by decide)
  have hexecutable := h "executable" (by decide)
  have hlaunchFile := h "launch_file" (by decide)
  simp only [implementationOf, Value.field_dict] at hbase hmerged
  cases hfile : node.get (.str "launch_file") with
  | some file =>
    have hfile' : node'.get (.str "launch_file") = some file := by simpa [hfile] using hlaunchFile
    rw [hfile'] at hmerged
    rw [hfile] at hbase
    rcases hpackage with hsame | ⟨-, hnew⟩
    · rw [hsame] at hmerged
      exact Option.some.inj (Except.ok.inj (hmerged.symm.trans hbase))
    · -- a package that is null is found nowhere
      rw [hnew] at hmerged
      obtain ⟨share, hshare, -⟩ := bind_ok.mp hmerged
      exact absurd hshare (hnull share)
  | none =>
    rw [hfile] at hbase hlaunchFile
    rcases hlaunchFile with hsame | ⟨-, hnew⟩
    · rw [hsame] at hmerged
      dsimp only at hbase hmerged
      cases hexe : node.get (.str "executable") with
      | none =>
        rw [hexe] at hbase
        cases hbase
      | some executable =>
        have hexe' : node'.get (.str "executable") = some executable := by simpa [hexe] using hexecutable
        rw [hexe] at hbase
        rw [hexe'] at hmerged
        obtain ⟨package, hget, hbase⟩ := bind_ok.mp hbase
        cases hp : node.get (.str "package") with
        | none => simp [Value.getItem, Scalar.key, hp] at hget
        | some p =>
          have hp' : node'.get (.str "package") = some p := by simpa [hp] using hpackage
          simp only [Value.getItem, Scalar.key, hp, Except.ok.injEq] at hget
          simp only [Value.getItem, Scalar.key, hp', bind_ok] at hmerged
          obtain ⟨p', hp', hmerged⟩ := hmerged
          cases hp'
          cases hget
          exact Option.some.inj (Except.ok.inj (hmerged.symm.trans hbase))
    · -- a launch file that is null is no path
      rw [hnew] at hmerged
      obtain ⟨_, -, hmerged⟩ := bind_ok.mp hmerged
      obtain ⟨_, hstr, -⟩ := bind_ok.mp hmerged
      cases hstr

theorem overlayRegistry_unchanged {base : Yaml} {scenario : Option Yaml} {r : Value}
    (h : overlayRegistry base scenario = .ok r) {name : Key} {node : Dict Value}
    (hbase : nodeEntry base name = some (.dict node)) (htext : TextFields node) :
    ∃ entry, nodeEntry r name = some entry ∧ ∀ node', entry = .dict node' → Unchanged node node' := by
  cases scenario with
  | none =>
    cases h
    refine ⟨_, hbase, fun node' hnode' f hf => Or.inl ?_⟩
    rw [Value.dict.inj hnode']
  | some overlay =>
    obtain ⟨_, hvalid, hm⟩ := bind_ok.mp h
    obtain ⟨habsent, hpresent⟩ := nodeEntry_merged overlay.2 hvalid hm hbase
    cases hentry : nodeEntry overlay name with
    | none =>
      refine ⟨_, habsent hentry, fun node' hnode' f hf => Or.inl ?_⟩
      rw [Value.dict.inj hnode']
    | some entry =>
      obtain ⟨new, hmerge, hnew⟩ := hpresent entry hentry
      refine ⟨new, hnew, fun node' hnode' => ?_⟩
      subst hnode'
      -- only a mapping merges into a mapping, and the validator has compared its fields
      obtain ⟨fields, rfl⟩ := Value.isDict_iff.mp (mergeConfig_isDict hmerge).symm
      have hfields : (Value.dict fields).WF := by
        obtain ⟨nodes, hnodes, hget⟩ := nodeEntry_eq_some.mp hentry
        exact (overlay.2.field hnodes).field hget
      exact unchanged_of_valid htext hfields hmerge fun f hf v hv =>
        validateRegistryOverlay_ok hvalid hbase hentry hf hv

/-! ## The launch -/

theorem definitionOf_entry {registry item entry : Value} {o : Option Value} {n : Key}
    (ho : registry.get (.str "node_registry") = .ok o) (hentry : nodeEntry registry n = some entry)
    (hname : itemName item = some n) : definitionOf (o.getD (.dict [])) item = some entry := by
  obtain ⟨nodes, hnodes, hget⟩ := nodeEntry_eq_some.mp hentry
  cases (Value.field_of_get ho).symm.trans hnodes
  obtain ⟨d, rfl⟩ := isDict_of_itemName hname
  rw [itemName] at hname
  unfold definitionOf
  cases hd : (Dict.get d (.str "name")).getD .null with
  | scalar s =>
    rw [hd] at hname
    have hkey : s.key = n := Option.some.inj hname
    simp [hd, Value.isIn, Value.contains, Value.item, Value.getItem, hkey, hget, Except.toOption]
  | _ =>
    rw [hd] at hname
    cases hname

/-- **What a launch runs.** The actions of a launch are those of the active nodes that the registry has an
implementation for, in their order, each in the namespace of the robot. Whatever the scenario's registry says,
a node that the baseline implements runs the baseline's implementation, if it is launched. -/
theorem launched_nodes (env : Environment) (layers : Layers) {bringupDir : String}
    {scenarioDirectory : Option String} (hread : layers.Read env bringupDir scenarioDirectory)
    (hnull : ∀ share, env.packageShare .null ≠ .ok share)
    {config : Configuration} (hconfig : readConfiguration env = .ok (some config))
    {actions : List LaunchAction} (hactions : buildLaunchActions env = .ok actions) :
    actions.map (fun a => (a.target, a.implementation)) =
        config.activeNodes.filterMap (launched env config.nodeRegistry) ∧
      (∀ a ∈ actions, a.robotNamespace = some (.launchConfiguration "robot_namespace")) ∧
      ∀ n node implementation, nodeEntry layers.registry n = some (.dict node) → TextFields node →
        implementationOf env (.dict node) = .ok (some implementation) →
        ∀ a ∈ actions, a.target = some n → a.implementation = implementation := by
  rw [buildLaunchActions, hconfig] at hactions
  obtain ⟨hmap, hmem⟩ := launchActions_launched hactions
  refine ⟨hmap, fun a ha => ?_, fun n node implementation hbase htext himplementation a ha htarget => ?_⟩
  · obtain ⟨item, -, haction⟩ := hmem a ha
    rcases launchAction_cases haction with ⟨-, hnone⟩ | ⟨-, -, -, -, hnamespace⟩
    · cases hnone
    · exact hnamespace a rfl
  · obtain ⟨registry, _, _, hregistry, -, ⟨o, ho, hnodes⟩, -, -⟩ := readConfiguration_ok hread hconfig
    obtain ⟨item, -, haction⟩ := hmem a ha
    have hname : itemName item = some n := (launchAction_target haction).symm.trans htarget
    obtain ⟨entry, hentry, hunchanged⟩ := overlayRegistry_unchanged hregistry hbase htext
    have hdef := definitionOf_entry ho hentry hname
    rw [← hnodes] at hdef
    rcases launchAction_cases haction with ⟨hnone, -⟩ | ⟨nodeDef, hsome, hdict, hmerged, -⟩
    · rw [hdef] at hnone
      cases hnone
    · rw [hdef] at hsome
      cases hsome
      obtain ⟨node', rfl⟩ := Value.isDict_iff.mp hdict
      exact (hunchanged node' rfl).implementation hnull himplementation hmerged

/-- The baseline registry of a bench, which names the package. -/
def benchRegistry : Yaml :=
  ⟨.mapping [("node_registry", .mapping [("imu_node1", .mapping [("executable", .str "imu_node"),
      ("package", .str "robot_framework_ros2")])])], by
    simp [Value.mapping, Value.wf_dict_iff]⟩

/-- A scenario registry that tunes the IMU node and adds a second one. -/
def benchOverlay : Yaml :=
  ⟨.mapping [("node_registry", .mapping
      [("imu_node1", .mapping [("parameters", flatMapping [("imu_topic", .str "imu2")])]),
        ("imu_node2", .mapping [("executable", .str "imu_node"), ("package", .str "bench")])])], by
    simp [flatMapping, Value.mapping, Value.wf_dict_iff]⟩

def benchLayers : Layers := { imuLayers with registry := benchRegistry, scenarioRegistry := some benchOverlay }

def benchEnvironment : Environment where
  scenario := "bench"
  hostname := "DevComputer2"
  isDir path := path = "share/config/scenarios/bench"
  file path :=
    if path = "share/config/node_registry.yaml" then some (.ok benchRegistry)
    else if path = "share/config/deployment_map.yaml" then some (.ok imuLayers.deployment)
    else if path = "share/config/scenarios/bench/node_registry.yaml" then some (.ok benchOverlay)
    else if path = "share/config/scenarios/bench/deployment_map.yaml" then
      imuLayers.scenarioDeployment.map .ok
    else none
  packageShare name := do
    let _name ← name.asStr
    .ok "share"
  xmlArguments _ := .ok []
  isPrintable _ := true

/-- The bench runs the baseline's node, tuned by the scenario. -/
theorem bench_launches_imu : ∃ actions, buildLaunchActions benchEnvironment = .ok actions ∧
    actions.map LaunchAction.target = [some (.str "imu_node1")] ∧
    ∀ a ∈ actions, a.target = some (.str "imu_node1") →
      a.implementation = .executable (.str "robot_framework_ros2") (.str "imu_node") := by
  obtain ⟨actions, hactions, htargets⟩ : ∃ actions, buildLaunchActions benchEnvironment = .ok actions ∧
      actions.map LaunchAction.target = [some (.str "imu_node1")] := ⟨_, rfl, rfl⟩
  obtain ⟨config, hconfig⟩ : ∃ config, readConfiguration benchEnvironment = .ok (some config) := ⟨_, rfl⟩
  have hread : benchLayers.Read benchEnvironment "share" (some "share/config/scenarios/bench") :=
    ⟨rfl, rfl, rfl, rfl, rfl, rfl⟩
  obtain ⟨-, -, hkept⟩ := launched_nodes benchEnvironment benchLayers hread (fun _ h => nomatch h) hconfig hactions
  refine ⟨actions, hactions, htargets, hkept (.str "imu_node1") _ _ rfl (fun f hf v hv => ?_) rfl⟩
  simp only [protectedFields, List.mem_cons, List.not_mem_nil, or_false] at hf
  rcases hf with rfl | rfl | rfl
  · cases hv
    exact ⟨_, rfl⟩
  · cases hv
    exact ⟨_, rfl⟩
  · cases hv

end Orchestrator
