import RobotFramework.Orchestrator.Merge

/-!
# The protected fields of the node registry

`validate_registry_overlay` compares the protected fields of an overlay node with `.get` and skips
overlay nodes that are not mappings. An accepted overlay keeps every implementation field of the
baseline exactly when none of its entries falls in one of these two gaps
(`protectedKept_iff`).
-/

namespace Orchestrator

open Python

/-! ## The code -/

/-- `protected_fields`. -/
def protectedFields : List String := ["package", "executable", "launch_file"]

/-- The text of the validator's error. -/
def protectedFieldMessage (nodeName : Scalar) (field : String) : String :=
  "Scenario cannot change protected node_registry field '" ++ nodeName.toStr ++ "." ++ field ++
    "' without explicit implementation override"

/-- The loop over `protected_fields` for one overlay node. -/
def validateFields (baseNodes : Value) (nodeName : Scalar) (overlayNode : Dict Value) :
    List String → Except PyError Unit
  | [] => .ok ()
  | field :: fields =>
      match overlayNode.get (.str field) with
      | none => validateFields baseNodes nodeName overlayNode fields
      | some v => do
          let baseNode ← baseNodes.getItem nodeName
          let baseField ← baseNode.get (.str field)
          if v.eq (baseField.getD .null) then validateFields baseNodes nodeName overlayNode fields
          else .error (.runtimeError (protectedFieldMessage nodeName field))

/-- The loop over `overlay_nodes.items()`. -/
def validateNodes (baseNodes : Value) : List (Scalar × Value) → Except PyError Unit
  | [] => .ok ()
  | (nodeName, overlayNode) :: nodes => do
      let known ← baseNodes.contains nodeName
      match known, overlayNode with
      | true, .dict fields => do
          validateFields baseNodes nodeName fields protectedFields
          validateNodes baseNodes nodes
      | _, _ => validateNodes baseNodes nodes

/-- `validate_registry_overlay`. -/
def validateRegistryOverlay (baseRegistry overlayRegistry : Value) : Except PyError Unit := do
  let baseNodes ← baseRegistry.get (.str "node_registry")
  let overlayNodes ← overlayRegistry.get (.str "node_registry")
  match overlayNodes.getD (.dict []) with
  | .dict nodes => validateNodes (baseNodes.getD (.dict [])) nodes
  | _ => .error .attributeError

/-! ## What the validator promises, and what it does -/

/-- The value a registry defines a node as. -/
def nodeEntry (registry : Value) (name : Key) : Option Value :=
  (registry.field (.str "node_registry")).bind (·.field name)

/-- Every node the baseline defines as a mapping is still a mapping, with the same protected fields
and equal values in them. -/
def ProtectedKept (base merged : Value) : Prop :=
  ∀ (name : Key) (node : Dict Value), nodeEntry base name = some (.dict node) →
    ∃ node' : Dict Value, nodeEntry merged name = some (.dict node') ∧
      ∀ f ∈ protectedFields,
        Option.Rel (fun v w => w.eq v = true) (node.get (.str f)) (node'.get (.str f))

mutual

/-- Merging the overlay value by name leaves every `nodes` and `sensors` list of the base value
equal. Only a mapping holds such lists. -/
def ListsStable (base overlay : Value) (key : Option Key) : Prop :=
  match overlay with
  | .dict items => match base with
      | .dict b => ListsStableItems b items
      | _ => True
  | .list os => match base with
      | .list bs => NamedListKey key → ∀ r, mergeNamedLists bs os = .ok r → Value.eqList r bs = true
      | _ => True
  | .scalar _ => True

/-- `ListsStable` for every entry of the overlay. -/
def ListsStableItems (base : Dict Value) : List (Scalar × Value) → Prop
  | [] => True
  | (k, v) :: items =>
      ListsStable ((base.get k.key).getD .null) v (some k.key) ∧ ListsStableItems base items

end

/-- The overlay stays clear of the validator's gaps: the entry of a baseline mapping is a mapping,
its protected fields are fields of the baseline node, and no list inside them is merged into a
different one. -/
def KeepsImplementation (base overlay : Value) : Prop :=
  ∀ (name : Key) (node : Dict Value), nodeEntry base name = some (.dict node) →
    ∀ entry, nodeEntry overlay name = some entry →
      ∃ fields : Dict Value, entry = .dict fields ∧
        ∀ f ∈ protectedFields, ∀ v, fields.get (.str f) = some v →
          ∃ w, node.get (.str f) = some w ∧ ListsStable w v (some (.str f))

theorem listsStableItems_iff {base items : Dict Value} : ListsStableItems base items ↔
    ∀ e ∈ items, ListsStable ((base.get e.1.key).getD .null) e.2 (some e.1.key) := by
  induction items with
  | nil => simp [ListsStableItems]
  | cons e items ih =>
    obtain ⟨k, v⟩ := e
    rw [ListsStableItems, ih, List.forall_mem_cons]

theorem mergeItems_keys {items merged m : Dict Value} (hsub : ∀ e ∈ items, e.1.key ∈ merged.keys)
    (h : mergeItems merged items = .ok m) : m.keys = merged.keys := by
  induction items generalizing merged with
  | nil =>
    rw [mergeItems] at h
    cases h
    rfl
  | cons e items ih =>
    obtain ⟨k, v⟩ := e
    obtain ⟨hk, hsub⟩ := List.forall_mem_cons.mp hsub
    rw [mergeItems, bind_ok] at h
    obtain ⟨w, _, h⟩ := h
    have hkeys : (merged.set k w).keys = merged.keys := by rw [Dict.keys_set, if_pos hk]
    rw [← hkeys]
    exact ih (by rwa [hkeys]) h

/-- Merging an equal value gives an equal value exactly when the named lists inside are stable. -/
theorem mergeConfig_eq_iff (v : Value) : ∀ {w r : Value} {key : Option Key}, w.WF → v.WF →
    v.eq w = true → mergeConfig w v key = .ok r → (r.eq w = true ↔ ListsStable w v key) := by
  induction v using Value.induction with
  | scalar s =>
    intro w r key _ _ heq h
    rw [mergeConfig] at h
    cases h
    simp [heq, ListsStable]
  | list os _ =>
    intro w r key _ _ heq h
    cases w with
    | list bs =>
      rw [ListsStable]
      by_cases hkey : NamedListKey key
      · rw [mergeConfig_list _ _ hkey, bind_ok] at h
        obtain ⟨m, hm, h⟩ := h
        cases h
        simp [hkey, hm, Value.eq]
      · rw [mergeConfig, if_neg hkey] at h
        cases h
        simp [hkey, heq]
    | _ => simp [Value.eq] at heq
  | dict items ih =>
    intro w r key hw hv heq h
    cases w with
    | dict b =>
      have hbwf := Value.wf_dict_iff.mp hw
      have hiwf := Value.wf_dict_iff.mp hv
      obtain ⟨_, hequal⟩ := (Value.eq_dict_iff hiwf.1).mp heq
      have hrwf := mergeConfig_wf hw hv h
      rw [mergeConfig_dict, bind_ok] at h
      obtain ⟨m, hm, h⟩ := h
      cases h
      have hkeys : Dict.keys m = Dict.keys b := by
        refine mergeItems_keys (fun e he => ?_) hm
        obtain ⟨y, hy, _⟩ := hequal _ _ (Dict.get_of_mem hiwf.1 he)
        exact Dict.mem_keys_iff.mpr ⟨y, hy⟩
      have hlen : m.length = b.length := by
        simpa [Dict.keys] using congrArg List.length hkeys
      rw [Value.eq_dict_iff (Value.wf_dict_iff.mp hrwf).1, ListsStable, listsStableItems_iff]
      constructor
      · rintro ⟨-, hall⟩ e he
        have hget := Dict.get_of_mem hiwf.1 he
        obtain ⟨y, hy, hey⟩ := hequal _ _ hget
        obtain ⟨x, hmerge, hx⟩ := (mergeItems_get hiwf.1 hm e.1.key).2 e.2 hget
        obtain ⟨y', hy', hxy⟩ := hall _ _ hx
        rw [hy] at hy' hmerge ⊢
        cases hy'
        have hywf : y.WF := hw.field hy
        exact (ih e he hywf (hiwf.2 e he) hey hmerge).mp hxy
      · intro hall
        refine ⟨hlen, fun j x hx => ?_⟩
        cases hget : Dict.get items j with
        | none =>
          rw [(mergeItems_get hiwf.1 hm j).1 hget] at hx
          exact ⟨x, hx, Value.eq_refl (hw.field hx)⟩
        | some v =>
          obtain ⟨k, rfl, hmem⟩ := Dict.mem_of_get hget
          obtain ⟨y, hy, hey⟩ := hequal _ _ hget
          obtain ⟨x', hmerge, hx'⟩ := (mergeItems_get hiwf.1 hm k.key).2 v hget
          rw [hx] at hx'
          cases hx'
          have hstable := hall _ hmem
          rw [hy] at hmerge hstable
          exact ⟨y, hy, (ih _ hmem (hw.field hy) (hiwf.2 _ hmem) hey hmerge).mpr hstable⟩
    | _ => simp [Value.eq] at heq

/-! ## What an accepted overlay satisfies -/

theorem validateFields_ok {baseNodes : Value} {nodeName : Scalar} {overlayNode node : Dict Value}
    (hnode : baseNodes.getItem nodeName = .ok (.dict node)) {fields : List String}
    (h : validateFields baseNodes nodeName overlayNode fields = .ok ()) {f : String} (hf : f ∈ fields)
    {v : Value} (hv : overlayNode.get (.str f) = some v) :
    v.eq ((node.get (.str f)).getD .null) = true := by
  induction fields with
  | nil => simp at hf
  | cons field fields ih =>
    rw [validateFields] at h
    rcases List.mem_cons.mp hf with rfl | hf
    · rw [hv, hnode] at h
      by_contra hne
      simp [Value.get, hne, Bind.bind, Except.bind] at h
    · cases hfield : overlayNode.get (.str field) with
      | none =>
        rw [hfield] at h
        exact ih h hf
      | some x =>
        rw [hfield, hnode] at h
        simp only [bind_ok] at h
        obtain ⟨_, _, _, _, h⟩ := h
        split_ifs at h
        exact ih h hf

theorem validateNodes_ok {baseNodes : Value} {nodes : List (Scalar × Value)}
    (h : validateNodes baseNodes nodes = .ok ()) {name : Scalar} {fields : Dict Value}
    (hmem : (name, .dict fields) ∈ nodes) (hknown : baseNodes.contains name = .ok true) :
    validateFields baseNodes name fields protectedFields = .ok () := by
  induction nodes with
  | nil => simp at hmem
  | cons e nodes ih =>
    obtain ⟨k, v⟩ := e
    rw [validateNodes, bind_ok] at h
    obtain ⟨known, hk, h⟩ := h
    rcases List.mem_cons.mp hmem with hhead | hmem
    · cases hhead
      rw [hknown] at hk
      cases hk
      obtain ⟨_, hfields, _⟩ := bind_ok.mp h
      exact hfields
    · split at h
      · obtain ⟨_, _, h⟩ := bind_ok.mp h
        exact ih h ‹_›
      · exact ih h ‹_›

theorem nodeEntry_eq_some {registry entry : Value} {name : Key} :
    nodeEntry registry name = some entry ↔ ∃ nodes : Dict Value,
      registry.field (.str "node_registry") = some (.dict nodes) ∧ nodes.get name = some entry := by
  rw [nodeEntry, Option.bind_eq_some_iff]
  constructor
  · rintro ⟨v, hv, hentry⟩
    cases v with
    | dict nodes => exact ⟨nodes, hv, hentry⟩
    | _ => cases hentry
  · rintro ⟨nodes, hnodes, hentry⟩
    exact ⟨_, hnodes, hentry⟩

theorem validateRegistryOverlay_ok {base overlay : Value}
    (h : validateRegistryOverlay base overlay = .ok ()) {name : Key} {node fields : Dict Value}
    (hbase : nodeEntry base name = some (.dict node))
    (hoverlay : nodeEntry overlay name = some (.dict fields)) {f : String} (hf : f ∈ protectedFields)
    {v : Value} (hv : fields.get (.str f) = some v) :
    v.eq ((node.get (.str f)).getD .null) = true := by
  obtain ⟨baseNodes, hbn, hnode⟩ := nodeEntry_eq_some.mp hbase
  obtain ⟨overlayNodes, hon, hfields⟩ := nodeEntry_eq_some.mp hoverlay
  have hget : ∀ {r x : Value} {k : Key}, r.field k = some x → r.get k = .ok (some x) := by
    intro r x k hr
    cases r with
    | dict d => simpa [Value.get] using hr
    | _ => cases hr
  rw [validateRegistryOverlay, hget hbn, hget hon] at h
  obtain ⟨k, rfl, hmem⟩ := Dict.mem_of_get hfields
  have hknown : (Value.dict baseNodes).contains k = .ok true := by simp [Value.contains, hnode]
  have hitem : (Value.dict baseNodes).getItem k = .ok (.dict node) := by simp [Value.getItem, hnode]
  exact validateFields_ok hitem (validateNodes_ok h hmem hknown) hf hv

/-! ## The merged registry -/

theorem nodeEntry_merged {base overlay merged : Value} (hwf : overlay.WF)
    (hvalid : validateRegistryOverlay base overlay = .ok ())
    (hm : mergeConfig base overlay none = .ok merged) {name : Key} {old : Value}
    (hbase : nodeEntry base name = some old) :
    (nodeEntry overlay name = none → nodeEntry merged name = some old) ∧
      ∀ entry, nodeEntry overlay name = some entry →
        ∃ new, mergeConfig old entry (some name) = .ok new ∧ nodeEntry merged name = some new := by
  obtain ⟨baseNodes, hbn, hold⟩ := nodeEntry_eq_some.mp hbase
  rw [validateRegistryOverlay] at hvalid
  obtain ⟨_, hgetb, hvalid⟩ := bind_ok.mp hvalid
  obtain ⟨overlayNodes, hgeto, hvalid⟩ := bind_ok.mp hvalid
  obtain ⟨b, rfl⟩ := Value.isDict_iff.mp (Value.isDict_of_get hgetb)
  obtain ⟨o, rfl⟩ := Value.isDict_iff.mp (Value.isDict_of_get hgeto)
  cases hgeto
  obtain ⟨m, rfl, hmget⟩ := mergeConfig_dict_get (Value.wf_dict_iff.mp hwf).1 hm
  rw [Value.field_dict] at hbn
  obtain ⟨habsent, hpresent⟩ := hmget (.str "node_registry")
  cases ho : Dict.get o (.str "node_registry") with
  | none =>
    refine ⟨fun _ => ?_, fun entry hentry => ?_⟩
    · rw [nodeEntry, Value.field_dict, habsent ho, hbn]
      exact hold
    · rw [nodeEntry, Value.field_dict, ho] at hentry
      cases hentry
  | some v =>
    -- the validator has already refused a `node_registry` that is not a mapping
    rw [ho, Option.getD_some] at hvalid
    obtain ⟨nodes, rfl⟩ : ∃ nodes, v = .dict nodes := by
      cases v with
      | dict nodes => exact ⟨nodes, rfl⟩
      | _ => cases hvalid
    obtain ⟨w, hw, hmw⟩ := hpresent _ ho
    rw [hbn, Option.getD_some] at hw
    have hnwf : (Value.dict nodes).WF := hwf.field ho
    obtain ⟨ns, rfl, hns⟩ := mergeConfig_dict_get (Value.wf_dict_iff.mp hnwf).1 hw
    obtain ⟨hnone, hsome⟩ := hns name
    have hentry : nodeEntry (.dict o) name = Dict.get nodes name := by simp [nodeEntry, ho]
    have hnew : nodeEntry (.dict m) name = Dict.get ns name := by simp [nodeEntry, hmw]
    rw [hentry, hnew]
    refine ⟨fun h => by rw [hnone h, hold], fun entry h => ?_⟩
    obtain ⟨new, hmerge, hget⟩ := hsome entry h
    rw [hold, Option.getD_some] at hmerge
    exact ⟨new, hmerge, hget⟩

theorem fieldKept_iff {node fields node' : Dict Value} {key : Option Key}
    (hnode : (Value.dict node).WF) (hfields : (Value.dict fields).WF)
    (h : mergeConfig (.dict node) (.dict fields) key = .ok (.dict node')) {f : Key}
    (hvalid : ∀ v, fields.get f = some v → v.eq ((node.get f).getD .null) = true) :
    Option.Rel (fun v w => w.eq v = true) (node.get f) (node'.get f) ↔
      ∀ v, fields.get f = some v → ∃ w, node.get f = some w ∧ ListsStable w v (some f) := by
  obtain ⟨m, hm, hmget⟩ := mergeConfig_dict_get (Value.wf_dict_iff.mp hfields).1 h
  cases hm
  obtain ⟨habsent, hpresent⟩ := hmget f
  cases hv : fields.get f with
  | none =>
    rw [habsent hv]
    refine ⟨fun _ => nofun, fun _ => ?_⟩
    cases hf : node.get f with
    | none => exact .none
    | some v => exact .some (Value.eq_refl (hnode.field hf))
  | some v =>
    obtain ⟨r, hr, hget⟩ := hpresent v hv
    have heq := hvalid v hv
    rw [hget]
    cases hw : node.get f with
    | none =>
      -- the validator compared with `None`: the overlay adds the field
      refine ⟨nofun, fun hall => ?_⟩
      obtain ⟨w, hw', _⟩ := hall v rfl
      cases hw'
    | some w =>
      rw [hw, Option.getD_some] at hr heq
      have hiff := mergeConfig_eq_iff v (hnode.field hw) (hfields.field hv) heq hr
      refine ⟨fun hrel => ?_, fun hall => ?_⟩
      · cases hrel with
        | some hrw =>
          rintro v' hv'
          cases hv'
          exact ⟨w, rfl, hiff.mp hrw⟩
      · obtain ⟨w', hw', hstable⟩ := hall v rfl
        cases hw'
        exact .some (hiff.mpr hstable)

/-- **The protected fields of an accepted overlay** are kept exactly when the overlay stays clear of
the validator's gaps. -/
theorem protectedKept_iff (base overlay merged : Yaml)
    (hvalid : validateRegistryOverlay base overlay = .ok ())
    (hm : mergeConfig base overlay none = .ok merged.val) :
    ProtectedKept base merged ↔ KeepsImplementation base overlay := by
  refine forall_congr' fun name => forall_congr' fun node => forall_congr' fun hbase => ?_
  obtain ⟨habsent, hpresent⟩ := nodeEntry_merged overlay.2 hvalid hm hbase
  have hnodewf : (Value.dict node).WF := by
    obtain ⟨nodes, hnodes, hget⟩ := nodeEntry_eq_some.mp hbase
    exact (base.2.field hnodes).field hget
  cases hentry : nodeEntry overlay name with
  | none =>
    rw [habsent hentry]
    refine ⟨fun _ => nofun, fun _ => ⟨node, rfl, fun f _ => ?_⟩⟩
    cases hf : node.get (.str f) with
    | none => exact .none
    | some v => exact .some (Value.eq_refl (hnodewf.field hf))
  | some entry =>
    obtain ⟨new, hmerge, hnew⟩ := hpresent entry hentry
    have hentrywf : entry.WF := by
      obtain ⟨nodes, hnodes, hget⟩ := nodeEntry_eq_some.mp hentry
      exact (overlay.2.field hnodes).field hget
    rw [hnew]
    constructor
    · rintro ⟨node', hnode', hrel⟩ entry' hentry'
      cases hentry'
      cases hnode'
      obtain ⟨fields, rfl⟩ := Value.isDict_iff.mp (mergeConfig_isDict hmerge).symm
      refine ⟨fields, rfl, fun f hf => ?_⟩
      refine (fieldKept_iff hnodewf hentrywf hmerge fun v hv => ?_).mp (hrel f hf)
      exact validateRegistryOverlay_ok hvalid hbase hentry hf hv
    · intro hall
      obtain ⟨fields, rfl, hfields⟩ := hall entry rfl
      obtain ⟨node', rfl, _⟩ := mergeConfig_dict_get (Value.wf_dict_iff.mp hentrywf).1 hmerge
      refine ⟨node', rfl, fun f hf => ?_⟩
      refine (fieldKept_iff hnodewf hentrywf hmerge fun v hv => ?_).mpr (hfields f hf)
      exact validateRegistryOverlay_ok hvalid hbase hentry hf hv

/-- A baseline registry with the IMU node. -/
def imuRegistry : Yaml :=
  ⟨.mapping [("node_registry", .mapping [("imu_node1", .mapping
    [("package", .str "robot_framework_ros2"), ("launch_file", .str "launch/imu_node.launch.xml")])])],
    by simp [Value.mapping, Value.wf_dict_iff]⟩

/-- A scenario registry that gives the IMU node no value (`imu_node1:`). -/
def nullNodeOverlay : Yaml :=
  ⟨.mapping [("node_registry", .mapping [("imu_node1", .null)])],
    by simp [Value.mapping, Value.wf_dict_iff]⟩

/-- A scenario registry that only tunes a parameter of the IMU node. -/
def imuParameterOverlay : Yaml :=
  ⟨.mapping [("node_registry", .mapping [("imu_node1", .mapping
    [("parameters", .mapping [("loop1_rate", .scalar (.int 100))])])])],
    by simp [Value.mapping, Value.wf_dict_iff]⟩

/-- The null entry is accepted and its merge has no mapping left for the node. -/
theorem nullNode_not_protectedKept :
    validateRegistryOverlay imuRegistry nullNodeOverlay = .ok () ∧
      ∃ merged : Yaml, mergeConfig imuRegistry nullNodeOverlay none = .ok merged.val ∧
        ¬ ProtectedKept imuRegistry merged := by
  refine ⟨rfl, nullNodeOverlay, rfl, fun h => ?_⟩
  obtain ⟨node', hnode', _⟩ := h (.str "imu_node1") _ rfl
  cases hnode'

theorem imuParameter_protectedKept : ∃ merged : Yaml,
    mergeConfig imuRegistry imuParameterOverlay none = .ok merged.val ∧
      ProtectedKept imuRegistry merged := by
  have hkeeps : KeepsImplementation imuRegistry imuParameterOverlay := by
    intro name node _ entry hentry
    have hget : nodeEntry imuParameterOverlay name = if Key.str "imu_node1" = name then
        some (.mapping [("parameters", .mapping [("loop1_rate", .scalar (.int 100))])]) else none := rfl
    rw [hget] at hentry
    split_ifs at hentry
    cases hentry
    refine ⟨_, rfl, fun f hf v hv => ?_⟩
    simp only [protectedFields, List.mem_cons, List.not_mem_nil, or_false] at hf
    rcases hf with rfl | rfl | rfl <;> simp at hv
  obtain ⟨m, hm⟩ : ∃ m, mergeConfig imuRegistry imuParameterOverlay none = .ok m := ⟨_, rfl⟩
  have hwf : m.WF := mergeConfig_wf imuRegistry.2 imuParameterOverlay.2 hm
  exact ⟨⟨m, hwf⟩, hm, (protectedKept_iff imuRegistry imuParameterOverlay ⟨m, hwf⟩ rfl hm).mpr hkeeps⟩

end Orchestrator
