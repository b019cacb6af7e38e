import RobotFramework.Orchestrator.Hosts
import RobotFramework.Orchestrator.Registry
import RobotFramework.Python.Builtins

/-!
# Launch actions

`build_launch_actions` and what it calls: the YAML files, the named maps, the alias resolution of
parameters and the loop over the active nodes. The file system, the package index and the XML parser
are read through an `Environment`; the diagnostics printed on the way are left out.
-/

namespace Orchestrator

open Python

/-! ## The code -/

/-- An `<arg>` element at the top of an XML launch file. -/
structure XmlArgument where
  name : Option String
  default : Option String

/-- What a launch reads of the machine it runs on. -/
structure Environment where
  /-- The `scenario` launch argument. -/
  scenario : String
  /-- `socket.gethostname()`. -/
  hostname : String
  isDir : String → Bool
  /-- What `yaml.safe_load` gives for an existing path. -/
  file : String → Option (Except PyError Yaml)
  packageShare : Value → Except PyError String
  /-- The `<arg>` elements of an XML launch file. -/
  xmlArguments : String → Except PyError (List XmlArgument)
  /-- Whether Python prints a character of a string as it is. -/
  isPrintable : Char → Bool

/-- A launch argument: a value, or a substitution the launch system performs. -/
inductive LaunchValue where
  | value (v : Value)
  | launchConfiguration (name : String)

/-- The actions of a launch description. -/
inductive LaunchAction where
  | includeLaunchDescription (xmlAbsolutePath : String) (launchArguments : Dict LaunchValue)
  | node (package executable name : Value) (namespaceValue : LaunchValue)
      (parameters : List (Dict Value))

/-- The named maps, as `load_named_map` returns them. -/
abbrev NamedMaps := Dict (Dict Value)

/-- `os.path.join`. -/
def joinPath (a b : String) : String :=
  match b.toList with
  | '/' :: _ => b
  | _ => match a.toList.getLast? with
      | none => b
      | some '/' => a ++ b
      | some _ => a ++ "/" ++ b

def emptyMapping : Yaml := ⟨.dict [], by simp [Value.wf_dict_iff]⟩

/-- `load_yaml_file`. -/
def loadYamlFile (env : Environment) (configPath description : String) : Except PyError Yaml :=
  match env.file configPath with
  | none => .error (.runtimeError (description ++ " does not exist: " ++ configPath))
  | some document => do
      let data ← document
      .ok (if data.val.truthy then data else emptyMapping)

/-- `scenario_relative_path`. -/
def scenarioRelativePath (scenarioDirectory configRelativePath : String) : String :=
  if "config/".toList <+: configRelativePath.toList then
    joinPath scenarioDirectory (String.ofList (configRelativePath.toList.drop "config/".toList.length))
  else joinPath scenarioDirectory configRelativePath

/-- `load_named_map`. -/
def loadNamedMap (env : Environment) (configName : Scalar) (configDefinition : Value)
    (scenarioDirectory : Option String) : Except PyError (Dict Value) := do
  let configPackage ← configDefinition.get (.str "package")
  let configRelativePath ← configDefinition.get (.str "relative_path")
  let name := configName.toStr
  if (configRelativePath.getD .null).truthy = false then
    .error (.runtimeError ("Configuration '" ++ name ++ "' has no relative_path"))
  else
    let configShare ← env.packageShare (configPackage.getD (.str "robot_framework_ros2"))
    let configRelativePath ← (configRelativePath.getD .null).asStr
    let configData ← loadYamlFile env (joinPath configShare configRelativePath)
      ("Configuration '" ++ name ++ "'")
    let configData ← match scenarioDirectory with
      | none => Except.ok configData.val
      | some directory =>
          let overlayPath := scenarioRelativePath directory configRelativePath
          if (env.file overlayPath).isSome then do
            let overlayData ← loadYamlFile env overlayPath ("Scenario configuration '" ++ name ++ "'")
            mergeConfig configData overlayData none
          else Except.ok configData.val
    let values ← configData.get configName.key
    match values.getD (.dict []) with
    | .dict values => .ok values
    | _ => .error (.runtimeError ("Configuration must define a '" ++ name ++ "' mapping"))

/-- The loop that fills `named_maps`. -/
def loadNamedMaps (env : Environment) (scenarioDirectory : Option String) (namedMaps : NamedMaps) :
    List (Scalar × Value) → Except PyError NamedMaps
  | [] => .ok namedMaps
  | (configName, configDefinition) :: items => do
      let values ← loadNamedMap env configName configDefinition scenarioDirectory
      loadNamedMaps env scenarioDirectory (namedMaps.set configName values) items

/-- `s.rsplit('_', 1)[-1]`. -/
def afterLastUnderscore (s : String) : String :=
  String.ofList (s.toList.reverse.takeWhile (· ≠ '_')).reverse

/-- The loop of `resolve_named_parameters`. -/
def resolveParameters (namedMaps : NamedMaps) (resolvedParameters : Dict Value) :
    List (Scalar × Value) → Except PyError (Dict Value)
  | [] => .ok resolvedParameters
  | (.str parameterName, .scalar (.str parameterValue)) :: items =>
      if '_' ∉ parameterName.toList then resolveParameters namedMaps resolvedParameters items
      else
        let mapName := afterLastUnderscore parameterName ++ "s"
        match (namedMaps.get (.str mapName)).bind (·.get (.str parameterValue)) with
        | some value =>
            resolveParameters namedMaps (resolvedParameters.set (.str parameterName) value) items
        | none => resolveParameters namedMaps resolvedParameters items
  | (.str _, _) :: items => resolveParameters namedMaps resolvedParameters items
  | _ :: _ => .error .typeError

/-- `resolve_named_parameters`. -/
def resolveNamedParameters (parameters : Dict Value) (namedMaps : NamedMaps) :
    Except PyError (Dict Value) :=
  resolveParameters namedMaps parameters parameters

/-- The entry an `<arg>` element gives `launch_argument_defaults`. -/
def defaultEntry (launchArgument : XmlArgument) : Option (Scalar × String) :=
  match launchArgument.name, launchArgument.default with
  | some name, some default => if name = "" then none else some (.str name, default)
  | _, _ => none

/-- `launch_argument_defaults`. -/
def launchArgumentDefaults (env : Environment) (xmlAbsolutePath : String) :
    Except PyError (Dict String) := do
  let launchArguments ← env.xmlArguments xmlAbsolutePath
  .ok (Dict.ofItems (launchArguments.filterMap defaultEntry))

/-- `launch_args`, as the loop of `build_launch_actions` fills it. -/
def launchArgs (env : Environment) (defaults : Dict String) (resolvedNodeParams : Dict Value)
    (targetName : Value) : Dict LaunchValue :=
  let text (s : String) := LaunchValue.value (.str s)
  let params := Dict.ofItems
    (resolvedNodeParams.map fun e => (Scalar.str e.1.toStr, text (e.2.toStr env.isPrintable)))
  let args := Dict.update (defaults.map fun e => (e.1, text e.2)) params
  (args.set (.str "node_name") (.value targetName)).set (.str "robot_namespace")
    (.launchConfiguration "robot_namespace")

/-- The body of the loop over the active nodes. -/
def launchAction (env : Environment) (nodeRegistry : Value) (namedMaps : NamedMaps)
    (nodeItem : Value) : Except PyError (Option LaunchAction) := do
  let name ← nodeItem.get (.str "name")
  let targetName := name.getD .null
  let registered ← nodeRegistry.isIn targetName
  if registered = false then .ok none
  else
    let nodeDef ← nodeRegistry.item targetName
    let registryParams ← nodeDef.get (.str "parameters")
    let deploymentParams ← nodeItem.get (.str "parameters")
    let registryNodeParams ← (registryParams.getD (.dict [])).unpack
    let deploymentNodeParams ← (deploymentParams.getD (.dict [])).unpack
    let nodeParams := Dict.update registryNodeParams deploymentNodeParams
    let resolvedNodeParams ← resolveNamedParameters nodeParams namedMaps
    match nodeDef.field (.str "launch_file") with
    | some launchFile => do
        let launchPackage := (nodeDef.field (.str "package")).getD (.str "robot_framework_ros2")
        let launchPackageShare ← env.packageShare launchPackage
        let launchFile ← launchFile.asStr
        let xmlAbsolutePath := joinPath launchPackageShare launchFile
        let defaults ← launchArgumentDefaults env xmlAbsolutePath
        .ok (some (.includeLaunchDescription xmlAbsolutePath
          (launchArgs env defaults resolvedNodeParams targetName)))
    | none => match nodeDef.field (.str "executable") with
        | some executable => do
            let package ← nodeDef.getItem (.str "package")
            .ok (some (.node package executable targetName (.launchConfiguration "robot_namespace")
              (if resolvedNodeParams.isEmpty then [] else [resolvedNodeParams])))
        | none => .ok none

/-- The loop over the active nodes. -/
def launchActions (env : Environment) (nodeRegistry : Value) (namedMaps : NamedMaps) :
    List Value → Except PyError (List LaunchAction)
  | [] => .ok []
  | nodeItem :: items => do
      let action ← launchAction env nodeRegistry namedMaps nodeItem
      let actions ← launchActions env nodeRegistry namedMaps items
      .ok (action.toList ++ actions)

/-- What `build_launch_actions` has read when its loop starts. -/
structure Configuration where
  nodeRegistry : Value
  namedMaps : NamedMaps
  activeNodes : List Value

/-- A file of the scenario's directory, if there is a scenario and it has the file. -/
def loadScenarioFile (env : Environment) (scenarioDirectory : Option String)
    (fileName description : String) : Except PyError (Option Yaml) :=
  match scenarioDirectory with
  | none => .ok none
  | some directory =>
      if (env.file (joinPath directory fileName)).isSome then do
        let data ← loadYamlFile env (joinPath directory fileName) description
        .ok (some data)
      else .ok none

/-- The scenario's registry, validated and merged into the baseline's. -/
def overlayRegistry (nodeRegistryData : Yaml) : Option Yaml → Except PyError Value
  | none => .ok nodeRegistryData
  | some scenarioRegistryData => do
      validateRegistryOverlay nodeRegistryData scenarioRegistryData
      mergeConfig nodeRegistryData scenarioRegistryData none

/-- The scenario's deployment map, merged into the baseline's. -/
def overlayDeployment (deployedData : Yaml) : Option Yaml → Except PyError Value
  | none => .ok deployedData
  | some scenarioDeploymentData => mergeConfig deployedData scenarioDeploymentData none

theorem overlayDeployment_wf {base : Yaml} {scenario : Option Yaml} {d : Value}
    (h : overlayDeployment base scenario = .ok d) : d.WF := by
  cases scenario with
  | none =>
    cases h
    exact base.2
  | some s => exact mergeConfig_wf base.2 s.2 h

/-- The scenario's directory: `none` for a scenario name that is refused. -/
def findScenarioDirectory (env : Environment) (bringupDir : String) : Option (Option String) :=
  if env.scenario = "" then some none
  else if '/' ∈ env.scenario.toList ∨ env.scenario = "." ∨ env.scenario = ".." then none
  else
    let scenarioDirectory := joinPath (joinPath (joinPath bringupDir "config") "scenarios") env.scenario
    if env.isDir scenarioDirectory then some (some scenarioDirectory) else none

/-- `except (KeyError, RuntimeError, yaml.YAMLError)`. -/
def caughtByNamedMaps : PyError → Bool
  | .keyError | .runtimeError _ | .yamlError => true
  | _ => false

/-- `build_launch_actions` up to its loop; `none` where it prints an error and returns no action. -/
def readConfiguration (env : Environment) : Except PyError (Option Configuration) := do
  let bringupDir ← env.packageShare (.str "robot_framework_ros2")
  match findScenarioDirectory env bringupDir with
  | none => .ok none
  | some scenarioDirectory =>
      let nodeRegistryPath := joinPath (joinPath bringupDir "config") "node_registry.yaml"
      let deploymentMapPath := joinPath (joinPath bringupDir "config") "deployment_map.yaml"
      if (env.file nodeRegistryPath).isNone ∨ (env.file deploymentMapPath).isNone then .ok none
      else
        let baseRegistry ← loadYamlFile env nodeRegistryPath "Node registry"
        let baseDeployment ← loadYamlFile env deploymentMapPath "Deployment map"
        let scenarioRegistry ← loadScenarioFile env scenarioDirectory "node_registry.yaml"
          "Scenario node registry"
        let nodeRegistryData ← overlayRegistry baseRegistry scenarioRegistry
        let scenarioDeployment ← loadScenarioFile env scenarioDirectory "deployment_map.yaml"
          "Scenario deployment map"
        let deployedData ← overlayDeployment baseDeployment scenarioDeployment
        let nodeRegistry ← nodeRegistryData.get (.str "node_registry")
        let activeNodes ← activeNodes deployedData env.hostname
        let infrastructureConfigs ← nodeRegistryData.get (.str "infrastructure_configs")
        match (infrastructureConfigs.getD (.dict [])).unpack.mapError (fun _ => .attributeError) with
        | .error error => .error error
        | .ok items => match loadNamedMaps env scenarioDirectory [] items with
            | .error error => if caughtByNamedMaps error then .ok none else .error error
            | .ok namedMaps => do
                let activeNodes ← activeNodes.iter
                let _names ← activeNodes.mapM (·.get (.str "name"))
                .ok (some ⟨nodeRegistry.getD (.dict []), namedMaps, activeNodes⟩)

/-- `build_launch_actions`. -/
def buildLaunchActions (env : Environment) : Except PyError (List LaunchAction) := do
  match ← readConfiguration env with
  | none => .ok []
  | some config => launchActions env config.nodeRegistry config.namedMaps config.activeNodes

end Orchestrator
