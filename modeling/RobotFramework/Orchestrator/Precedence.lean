import RobotFramework.Orchestrator.Launch

/-!
# Parameter precedence

A launch argument is the alias-resolved value of the first of six layers that defines it: the
scenario's and the baseline's deployment for the host, then for `*`, then the scenario's and the
baseline's registry.

`NodeList` is what a node list says of one name. It is kept by every merge of two lists, and with it
the rule that the overlay's parameters win; the two deployment files and the `*` and host entries are
then two applications of one lemma.
-/

namespace Orchestrator

open Python

/-! ## Layers -/

/-- The places that give a node its parameters. -/
inductive Layer where
  | scenarioHost
  | host
  | scenarioWildcard
  | wildcard
  | scenarioRegistry
  | registry
  deriving DecidableEq

/-- The layers, the one that wins first. -/
def precedence : List Layer :=
  [.scenarioHost, .host, .scenarioWildcard, .wildcard, .scenarioRegistry, .registry]

/-- The four files that define parameters. -/
structure Layers where
  registry : Yaml
  deployment : Yaml
  scenarioRegistry : Option Yaml
  scenarioDeployment : Option Yaml

/-- A parameter in the registry entry of a node. -/
def registryParameter (registry : Value) (n k : Key) : Option Value :=
  registry.path [.str "node_registry", n, .str "parameters", k]

/-- A parameter of a node item. -/
def itemParameter (item : Option Value) (k : Key) : Option Value :=
  item.bind (·.path [.str "parameters", k])

/-- A parameter of a node in a `nodes` value. -/
def listParameter (nodes : Option Value) (n k : Key) : Option Value :=
  itemParameter (named n (nodes.getD (.list [])).elements).head? k

/-- The value a layer has for a parameter of a node. -/
def Layers.parameter (layers : Layers) (host : String) (n k : Key) : Layer → Option Value
  | .scenarioHost => layers.scenarioDeployment.bind fun d => listParameter (hostNodes d host) n k
  | .host => listParameter (hostNodes layers.deployment host) n k
  | .scenarioWildcard => layers.scenarioDeployment.bind fun d => listParameter (hostNodes d "*") n k
  | .wildcard => listParameter (hostNodes layers.deployment "*") n k
  | .scenarioRegistry => layers.scenarioRegistry.bind fun r => registryParameter r n k
  | .registry => registryParameter layers.registry n k

/-- The value of the first layer that defines a parameter. -/
def Layers.effective (layers : Layers) (host : String) (n k : Key) : Option Value :=
  precedence.findSome? (layers.parameter host n k)

/-- What the named map `suffixs` has for a string value of a parameter `…_suffix`. -/
def aliasValue (namedMaps : NamedMaps) (k : String) (v : Value) : Option Value :=
  match v with
  | .scalar (.str s) =>
      if '_' ∈ k.toList then
        (namedMaps.get (.str (afterLastUnderscore k ++ "s"))).bind (·.get (.str s))
      else none
  | _ => none

/-- A value, looked up once in the named map of its parameter. -/
def resolvedAlias (namedMaps : NamedMaps) (k : String) (v : Value) : Value :=
  (aliasValue namedMaps k v).getD v

/-- The default of the last `<arg>` element with a name and a default. -/
def xmlDefault (xmlArguments : List XmlArgument) (k : String) : Option String :=
  xmlArguments.reverse.findSome? fun a => if a.name = some k ∧ k ≠ "" then a.default else none

/-- The text a launch file is given for a parameter. -/
def effectiveArgument (env : Environment) (layers : Layers) (namedMaps : NamedMaps)
    (xmlArguments : List XmlArgument) (n : Key) (k : String) : Option String :=
  match layers.effective env.hostname n (.str k) with
  | some v => some ((resolvedAlias namedMaps k v).toStr env.isPrintable)
  | none => xmlDefault xmlArguments k

/-! ### The shape of the files -/

/-- Every value on the way of a path is a mapping. -/
def OpenAlong (v : Value) (ks : List Key) : Prop :=
  ∀ p y, p <+: ks → v.path p = some y → y.isDict = true

/-- A mapping of strings to scalars. -/
structure FlatMapping (p : Value) : Prop where
  isDict : p.isDict = true
  scalar : ∀ j v, p.field j = some v → ∃ s, v = .scalar s
  string : ∀ j v, p.field j = some v → ∃ s, j = .str s

/-- A registry whose nodes are mappings with flat parameters. -/
structure RegistryShape (registry : Value) : Prop where
  openAlong : ∀ n, OpenAlong registry [.str "node_registry", n, .str "parameters"]
  flat : ∀ n p, registry.path [.str "node_registry", n, .str "parameters"] = some p → FlatMapping p

/-- A deployment map whose hosts have lists of uniquely named nodes with flat parameters, none of
them marked for removal. -/
structure DeploymentShape (deployment : Value) : Prop where
  openAlong : ∀ h : String, OpenAlong deployment [.str "host_assignments", .str h]
  list : ∀ h v, hostNodes deployment h = some v → ∃ l, v = .list l
  unique : ∀ h l, hostNodes deployment h = some (.list l) → UniqueNames l
  keep : ∀ h l, hostNodes deployment h = some (.list l) → ∀ v ∈ l, isRemove v = false
  flat : ∀ h l, hostNodes deployment h = some (.list l) → ∀ v ∈ l, ∀ p,
    v.field (.str "parameters") = some p → FlatMapping p

/-- The shape the precedence rule is stated for. -/
structure Layers.Shape (layers : Layers) : Prop where
  deployment : DeploymentShape layers.deployment
  scenarioRegistry : ∀ r, layers.scenarioRegistry = some r → RegistryShape r
  scenarioDeployment : ∀ d, layers.scenarioDeployment = some d → DeploymentShape d

/-- The layers are the files a launch reads. -/
structure Layers.Read (layers : Layers) (env : Environment) (bringupDir : String)
    (scenarioDirectory : Option String) : Prop where
  share : env.packageShare (.str "robot_framework_ros2") = .ok bringupDir
  scenario : findScenarioDirectory env bringupDir = some scenarioDirectory
  registry : loadYamlFile env (joinPath (joinPath bringupDir "config") "node_registry.yaml")
    "Node registry" = .ok layers.registry
  deployment : loadYamlFile env (joinPath (joinPath bringupDir "config") "deployment_map.yaml")
    "Deployment map" = .ok layers.deployment
  scenarioRegistry : loadScenarioFile env scenarioDirectory "node_registry.yaml"
    "Scenario node registry" = .ok layers.scenarioRegistry
  scenarioDeployment : loadScenarioFile env scenarioDirectory "deployment_map.yaml"
    "Scenario deployment map" = .ok layers.scenarioDeployment

/-! ## Merging two items of a name -/

theorem FlatMapping.merge {b : Option Value} {o m : Value} {key : Option Key} (hwf : o.WF)
    (hb : ∀ p, b = some p → FlatMapping p) (ho : FlatMapping o)
    (h : mergeConfig (b.getD .null) o key = .ok m) : FlatMapping m := by
  have hfield : ∀ j v, m.field j = some v →
      o.field j = some v ∨ ∃ p, b = some p ∧ p.field j = some v := by
    intro j v hv
    obtain ⟨_, hnone, hsome⟩ := mergeConfig_field hwf ho.isDict h j
    cases hx : o.field j with
    | none =>
      rw [hnone hx] at hv
      cases b with
      | none => cases hv
      | some p => exact .inr ⟨p, rfl, hv⟩
    | some x =>
      obtain ⟨w, hw, hm⟩ := hsome x hx
      obtain ⟨s, rfl⟩ := ho.scalar j x hx
      rw [mergeConfig] at hw
      cases hw
      exact .inl (hm.symm.trans hv)
  refine ⟨(mergeConfig_field hwf ho.isDict h .none).1, fun j v hv => ?_, fun j v hv => ?_⟩
  · rcases hfield j v hv with hv | ⟨p, hp, hv⟩
    · exact ho.scalar j v hv
    · exact (hb p hp).scalar j v hv
  · rcases hfield j v hv with hv | ⟨p, hp, hv⟩
    · exact ho.string j v hv
    · exact (hb p hp).string j v hv

/-- What a node item has to be for its parameters to be merged key by key. -/
structure NodeItem (item : Value) : Prop where
  isDict : item.isDict = true
  keep : isRemove item = false
  flat : ∀ p, item.field (.str "parameters") = some p → FlatMapping p

theorem mergeConfig_path_or {b o m : Value} {key : Option Key} (ks : List Key) (k : Key) (hwf : o.WF)
    (h : mergeConfig b o key = .ok m) (hopen : OpenAlong o ks)
    (hscalar : ∀ x, o.path (ks ++ [k]) = some x → ∃ s, x = .scalar s) :
    m.path (ks ++ [k]) = (o.path (ks ++ [k])).or (b.path (ks ++ [k])) := by
  cases hx : o.path (ks ++ [k]) with
  | none => exact mergeConfig_path_none ks k hwf h hx hopen
  | some x =>
    obtain ⟨w, hw, hm⟩ := mergeConfig_path_some ks k hwf h hx
    obtain ⟨s, rfl⟩ := hscalar x hx
    rw [mergeConfig] at hw
    cases hw
    exact hm

theorem OpenAlong.nil {v : Value} (h : v.isDict = true) : OpenAlong v [] := by
  intro p y hp hy
  rw [List.prefix_nil.mp hp, Value.path_nil] at hy
  cases hy
  exact h

theorem OpenAlong.cons {v : Value} {k : Key} {ks : List Key} (h : v.isDict = true)
    (hk : ∀ w, v.field k = some w → OpenAlong w ks) : OpenAlong v (k :: ks) := by
  intro p y hp hy
  rw [List.prefix_cons_iff] at hp
  rcases hp with rfl | ⟨t, rfl, ht⟩
  · cases hy
    exact h
  · rw [Value.path_cons, Option.bind_eq_some_iff] at hy
    obtain ⟨w, hw, hy⟩ := hy
    exact hk w hw t y ht hy

theorem NodeItem.openAlong {o : Value} (ho : NodeItem o) : OpenAlong o [.str "parameters"] :=
  .cons ho.isDict fun p hp => .nil (ho.flat p hp).isDict

theorem NodeItem.parameter_scalar {o x : Value} {k : Key} (ho : NodeItem o)
    (hx : o.path ([.str "parameters"] ++ [k]) = some x) : ∃ s, x = .scalar s := by
  rw [List.singleton_append, Value.path_cons, Option.bind_eq_some_iff] at hx
  obtain ⟨p, hp, hx⟩ := hx
  rw [Value.path_cons, Option.bind_eq_some_iff] at hx
  obtain ⟨y, hy, hyx⟩ := hx
  cases hyx
  exact (ho.flat p hp).scalar k x hy

theorem NodeItem.merge {b o m : Value} (hwf : o.WF) (hb : NodeItem b) (ho : NodeItem o)
    (h : mergeConfig b o none = .ok m) :
    NodeItem m ∧ ∀ k, itemParameter (some m) k = (itemParameter (some o) k).or
      (itemParameter (some b) k) := by
  have hfield := mergeConfig_field hwf ho.isDict h
  refine ⟨⟨(hfield .none).1, ?_, ?_⟩, fun k => ?_⟩
  · obtain ⟨_, hnone, hsome⟩ := hfield (.str "remove")
    have hkeep := ho.keep
    rw [isRemove] at hkeep ⊢
    cases hx : o.field (.str "remove") with
    | none =>
      rw [hnone hx]
      exact hb.keep
    | some x =>
      obtain ⟨w, hw, hm⟩ := hsome x hx
      rw [hx, Option.getD_some] at hkeep
      rw [hm, Option.getD_some]
      cases x with
      | scalar s =>
        rw [mergeConfig] at hw
        cases hw
        exact hkeep
      | list xs =>
        rw [mergeConfig_replace rfl (by decide)] at hw
        cases hw
        rfl
      | dict d =>
        obtain ⟨e, rfl⟩ := Value.isDict_iff.mp (mergeConfig_field (hwf.field hx) rfl hw .none).1
        rfl
  · intro p hp
    obtain ⟨_, hnone, hsome⟩ := hfield (.str "parameters")
    cases hx : o.field (.str "parameters") with
    | none =>
      rw [hnone hx] at hp
      exact hb.flat p hp
    | some x =>
      obtain ⟨w, hw, hm⟩ := hsome x hx
      rw [hm] at hp
      cases hp
      exact (ho.flat x hx).merge (hwf.field hx) hb.flat hw
  · exact mergeConfig_path_or [.str "parameters"] k hwf h ho.openAlong
      fun x hx => ho.parameter_scalar hx

/-! ## Merging two lists, at one name -/

/-- A `nodes` value is a list with at most one item of a name. -/
structure NodeList (n : Key) (nodes : Option Value) (item : Option Value) : Prop where
  list : ∀ v, nodes = some v → ∃ l, v = .list l
  named : named n (nodes.getD (.list [])).elements = item.toList
  item : ∀ v, item = some v → NodeItem v

theorem NodeList.listParameter {n : Key} {nodes item : Option Value} (h : NodeList n nodes item)
    (k : Key) : listParameter nodes n k = itemParameter item k := by
  rw [Orchestrator.listParameter, h.named]
  cases item <;> rfl

theorem mem_of_named {n : Key} {values : List Value} {v : Value} (h : v ∈ named n values) :
    v ∈ values ∧ itemName v = some n := by
  simpa [named] using h

theorem NodeList.merge {n : Key} (hn : n ≠ .none) {base overlay merged eb eo : Option Value}
    (hwf : ∀ v, overlay = some v → v.WF) (hb : NodeList n base eb) (ho : NodeList n overlay eo)
    (hnone : overlay = none → merged = base)
    (hsome : ∀ x, overlay = some x → ∃ w,
      mergeConfig (base.getD .null) x (some (.str "nodes")) = .ok w ∧ merged = some w) :
    ∃ e, NodeList n merged e ∧
      ∀ k, itemParameter e k = (itemParameter eo k).or (itemParameter eb k) := by
  cases overlay with
  | none =>
    have heo : eo = none := by
      have := ho.named
      cases eo with
      | none => rfl
      | some v => cases this
    rw [hnone rfl, heo]
    exact ⟨eb, hb, fun k => rfl⟩
  | some x =>
    obtain ⟨os, rfl⟩ := ho.list x rfl
    obtain ⟨w, hw, rfl⟩ := hsome _ rfl
    have hoswf : ∀ v ∈ os, v.WF := Value.wf_list_iff.mp (hwf _ rfl)
    have honamed : Orchestrator.named n os = eo.toList := ho.named
    have hlist : ∀ l : List Value, ∀ v, some (Value.list l) = some v → ∃ l, v = .list l := by
      intro l v hv
      cases hv
      exact ⟨l, rfl⟩
    obtain ⟨l, rfl, ⟨bs, hbs, hl⟩ | ⟨hbs, rfl⟩⟩ := mergeConfig_nodes hw
    · have hbnamed : Orchestrator.named n bs = eb.toList := by
        rw [← hb.named]
        cases base with
        | none => cases hbs
        | some b =>
          cases hbs
          rfl
      have hfold := mergeNamedLists_named hn hoswf hl
      rw [honamed, hbnamed] at hfold
      cases eo with
      | none =>
        have hl : Orchestrator.named n l = eb.toList := (Except.ok.inj hfold).symm
        exact ⟨eb, ⟨hlist l, hl, hb.item⟩, fun k => rfl⟩
      | some o =>
        have hoitem := ho.item o rfl
        have howf : o.WF := hoswf o (mem_of_named (by rw [honamed]; simp)).1
        rw [Option.toList_some, List.foldlM_cons, applyNamed, if_neg (by simp [hoitem.keep])] at hfold
        cases eb with
        | none =>
          have hl : Orchestrator.named n l = [o] := (Except.ok.inj hfold).symm
          refine ⟨some o, ⟨hlist l, hl, ho.item⟩, fun k => ?_⟩
          cases itemParameter (some o) k <;> rfl
        | some b =>
          obtain ⟨items, hitems, hfold⟩ := bind_ok.mp hfold
          obtain ⟨m, hm, hitems⟩ := bind_ok.mp hitems
          have hl : Orchestrator.named n l = [m] := by
            rw [← Except.ok.inj hfold, ← Except.ok.inj hitems]
            rfl
          obtain ⟨hmitem, hparam⟩ := (hb.item b rfl).merge howf hoitem hm
          exact ⟨some m, ⟨hlist l, hl, fun v hv => by cases hv; exact hmitem⟩, hparam⟩
    · have hbase : base = none := by
        cases base with
        | none => rfl
        | some b =>
          obtain ⟨bs, rfl⟩ := hb.list b rfl
          exact absurd rfl (hbs bs)
      have heb : eb = none := by
        have hnil := hb.named
        rw [hbase] at hnil
        cases eb with
        | none => rfl
        | some v => cases hnil
      refine ⟨eo, ⟨hlist l, honamed, ho.item⟩, fun k => ?_⟩
      rw [heb]
      cases itemParameter eo k <;> rfl

/-! ## The merged files -/

theorem DeploymentShape.nodeList {d : Value} (hd : DeploymentShape d) (h : String) {n : Key}
    (hn : n ≠ .none) : ∃ e, NodeList n (hostNodes d h) e := by
  cases hx : hostNodes d h with
  | none => exact ⟨none, ⟨by simp, rfl, by simp⟩⟩
  | some v =>
    obtain ⟨l, rfl⟩ := hd.list h v hx
    refine ⟨(named n l).head?, ⟨hx ▸ hd.list h, ?_, fun v hv => ?_⟩⟩
    · have hlen := hd.unique h l hx n hn
      rw [Option.getD_some, Value.elements_list]
      cases hl : named n l with
      | nil => rfl
      | cons v vs =>
        rw [hl, List.length_cons] at hlen
        rw [List.length_eq_zero_iff.mp (by omega : vs.length = 0)]
        rfl
    · obtain ⟨hmem, hname⟩ := mem_of_named (List.mem_of_head? hv)
      obtain ⟨d, rfl⟩ := isDict_of_itemName hname
      exact ⟨rfl, hd.keep h l hx _ hmem, hd.flat h l hx _ hmem⟩

theorem overlayDeployment_nodeList {base : Yaml} {scenario : Option Yaml} {d : Value} (h : String)
    {n : Key} (hn : n ≠ .none) (hb : DeploymentShape base)
    (ho : ∀ s, scenario = some s → DeploymentShape s) (hd : overlayDeployment base scenario = .ok d) :
    ∃ e, NodeList n (hostNodes d h) e ∧ ∀ k, itemParameter e k =
      (scenario.bind fun s => listParameter (hostNodes s h) n k).or
        (listParameter (hostNodes base h) n k) := by
  obtain ⟨eb, heb⟩ := hb.nodeList h hn
  cases scenario with
  | none =>
    cases hd
    exact ⟨eb, heb, fun k => (heb.listParameter k).symm⟩
  | some s =>
    have hs := ho s rfl
    obtain ⟨eo, heo⟩ := hs.nodeList h hn
    obtain ⟨e, he, hparam⟩ := NodeList.merge hn (fun v hv => s.2.path hv) heb heo
      (fun hx => mergeConfig_path_none [.str "host_assignments", .str h] (.str "nodes") s.2 hd hx
        (hs.openAlong h))
      (fun x hx => hostNodes_merged_some s.2 hd hx)
    refine ⟨e, he, fun k => ?_⟩
    rw [hparam k, Option.bind_some, heo.listParameter, heb.listParameter]

/-- The active nodes: the host's parameters win over those of `*`. -/
theorem activeNodes_named {d nodes : Value} {host : String} {n : Key} {eh ew : Option Value}
    (hn : n ≠ .none) (hwf : d.WF) (hh : NodeList n (hostNodes d host) eh)
    (hw : NodeList n (hostNodes d "*") ew) (h : activeNodes d host = .ok nodes) :
    ∃ e, named n nodes.elements = e.toList ∧
      (e ≠ none → ∀ k, itemParameter e k = (itemParameter eh k).or (itemParameter ew k)) := by
  have hmerge : ∀ merged : Option Value, merged.getD (.list []) = nodes →
      (hostNodes d host = none → merged = hostNodes d "*") →
      (∀ x, hostNodes d host = some x → ∃ w, mergeConfig ((hostNodes d "*").getD .null) x
        (some (.str "nodes")) = .ok w ∧ merged = some w) →
      ∃ e, named n nodes.elements = e.toList ∧
        (e ≠ none → ∀ k, itemParameter e k = (itemParameter eh k).or (itemParameter ew k)) := by
    intro merged hnodes hnone hsome
    obtain ⟨e, he, hparam⟩ := NodeList.merge hn (fun v hv => hwf.path hv) hw hh hnone hsome
    exact ⟨e, hnodes ▸ he.named, fun _ => hparam⟩
  rcases activeNodes_ok hwf h with ⟨_, rfl⟩ | ⟨_, _, ⟨hnone, hnodes⟩ | ⟨x, hx, hnodes⟩⟩
  · exact ⟨none, rfl, fun hne => absurd rfl hne⟩
  · exact hmerge (hostNodes d "*") hnodes.symm (fun _ => rfl) (by simp [hnone])
  · refine hmerge (some nodes) rfl (by simp [hx]) fun y hy => ?_
    rw [hx] at hy
    cases hy
    exact ⟨nodes, hnodes, rfl⟩

theorem overlayRegistry_parameter {base : Yaml} {scenario : Option Yaml} {r : Value} (n k : Key)
    (ho : ∀ s, scenario = some s → RegistryShape s) (hr : overlayRegistry base scenario = .ok r) :
    registryParameter r n k =
      (scenario.bind fun s => registryParameter s n k).or (registryParameter base n k) := by
  cases scenario with
  | none =>
    cases hr
    rfl
  | some s =>
    have hs := ho s rfl
    rw [overlayRegistry, bind_ok] at hr
    obtain ⟨_, _, hr⟩ := hr
    refine mergeConfig_path_or [.str "node_registry", n, .str "parameters"] k s.2 hr
      (hs.openAlong n) fun x hx => ?_
    rw [Value.path_append, Option.bind_eq_some_iff] at hx
    obtain ⟨p, hp, hx⟩ := hx
    rw [Value.path_cons, Option.bind_eq_some_iff] at hx
    obtain ⟨y, hy, hyx⟩ := hx
    cases hyx
    exact (hs.flat n p hp).scalar k x hy

theorem overlayRegistry_wf {base : Yaml} {scenario : Option Yaml} {r : Value}
    (h : overlayRegistry base scenario = .ok r) : r.WF := by
  cases scenario with
  | none =>
    cases h
    exact base.2
  | some s =>
    obtain ⟨_, _, h⟩ := bind_ok.mp h
    exact mergeConfig_wf base.2 s.2 h

theorem Layers.effective_eq (layers : Layers) (host : String) (n k : Key) :
    layers.effective host n k =
      (((layers.scenarioDeployment.bind fun d => listParameter (hostNodes d host) n k).or
          (listParameter (hostNodes layers.deployment host) n k)).or
        ((layers.scenarioDeployment.bind fun d => listParameter (hostNodes d "*") n k).or
          (listParameter (hostNodes layers.deployment "*") n k))).or
      ((layers.scenarioRegistry.bind fun r => registryParameter r n k).or
        (registryParameter layers.registry n k)) := by
  have hcons : ∀ (f : Layer → Option Value) (l : Layer) (ls : List Layer),
      (l :: ls).findSome? f = (f l).or (ls.findSome? f) := by
    intro f l ls
    rw [List.findSome?_cons]
    cases f l <;> rfl
  simp only [Layers.effective, precedence, hcons, List.findSome?_nil, Option.or_none,
    Layers.parameter, Option.or_assoc]

/-! ## Alias resolution and launch arguments -/

theorem resolveParameters_cons {namedMaps : NamedMaps} {acc r items : Dict Value} {i : Scalar}
    {v : Value} (h : resolveParameters namedMaps acc ((i, v) :: items) = .ok r) :
    ∃ name, i = .str name ∧ resolveParameters namedMaps
      ((aliasValue namedMaps name v).elim acc (acc.set i)) items = .ok r := by
  cases i with
  | str name =>
    refine ⟨name, rfl, ?_⟩
    cases v with
    | scalar s =>
      cases s with
      | str value =>
        rw [resolveParameters] at h
        rw [aliasValue]
        by_cases hname : '_' ∈ name.toList
        · rw [if_neg (not_not.mpr hname)] at h
          rw [if_pos hname]
          cases hx : (namedMaps.get (.str (afterLastUnderscore name ++ "s"))).bind
              (·.get (.str value)) with
          | none =>
            simp only [hx] at h
            exact h
          | some w =>
            simp only [hx] at h
            exact h
        · rw [if_pos hname] at h
          rw [if_neg hname]
          exact h
      | _ =>
        rw [resolveParameters] at h
        · exact h
        · simp
    | _ =>
      rw [resolveParameters] at h
      · exact h
      · simp
  | _ =>
    rw [resolveParameters] at h
    · cases h
    all_goals simp

theorem resolveParameters_ok {namedMaps : NamedMaps} {items : Dict Value} :
    ∀ {acc r : Dict Value}, items.keys.Nodup →
      (∀ j v, Dict.get items j = some v → acc.get j = some v) →
      resolveParameters namedMaps acc items = .ok r →
      (∀ e ∈ items, ∃ s, e.1 = .str s) ∧ r.keys = acc.keys ∧
        ∀ k : String, r.get (.str k) =
          ((Dict.get items (.str k)).map (resolvedAlias namedMaps k)).or (acc.get (.str k)) := by
  induction items with
  | nil =>
    intro acc r _ _ h
    rw [resolveParameters] at h
    cases h
    exact ⟨by simp, rfl, fun k => rfl⟩
  | cons e items ih =>
    intro acc r hnd hacc h
    obtain ⟨i, v⟩ := e
    obtain ⟨name, rfl, h⟩ := resolveParameters_cons h
    rw [Dict.keys_cons, List.nodup_cons] at hnd
    have hself : acc.get (.str name) = some v := hacc _ _ (by simp)
    -- the accumulator after this entry: the alias of the value is under its key
    have hkeys' : Dict.keys ((aliasValue namedMaps name v).elim acc (acc.set (.str name))) =
        acc.keys := by
      cases aliasValue namedMaps name v with
      | none => rfl
      | some w => exact (Dict.keys_set ..).trans (if_pos (Dict.mem_keys_iff.mpr ⟨v, hself⟩))
    have hget' : ∀ j, Dict.get ((aliasValue namedMaps name v).elim acc (acc.set (.str name))) j =
        if Key.str name = j then some (resolvedAlias namedMaps name v) else acc.get j := by
      intro j
      rw [resolvedAlias]
      cases aliasValue namedMaps name v with
      | none =>
        split_ifs with hj
        · exact hj ▸ hself
        · rfl
      | some w => exact Dict.get_set ..
    have hne : ∀ j w, Dict.get items j = some w → Key.str name ≠ j := by
      rintro j w hw rfl
      exact hnd.1 (Dict.mem_keys_iff.mpr ⟨w, hw⟩)
    have hsub : ∀ j w, Dict.get items j = some w →
        Dict.get ((aliasValue namedMaps name v).elim acc (acc.set (.str name))) j = some w := by
      intro j w hw
      rw [hget' j, if_neg (hne j w hw)]
      apply hacc
      rw [Dict.get_cons, Scalar.key_str, if_neg (hne j w hw), hw]
    obtain ⟨hstr, hkeys, hget⟩ := ih hnd.2 hsub h
    refine ⟨List.forall_mem_cons.mpr ⟨⟨name, rfl⟩, hstr⟩, hkeys.trans hkeys', fun k => ?_⟩
    rw [hget k, hget', Dict.get_cons, Scalar.key_str]
    by_cases hk : Key.str name = .str k
    · cases hk
      have hnone : Dict.get items (.str name) = none := Dict.get_eq_none_iff.mpr hnd.1
      rw [if_pos rfl, if_pos rfl, hnone]
      rfl
    · rw [if_neg hk, if_neg hk]

theorem resolveNamedParameters_ok {namedMaps : NamedMaps} {params r : Dict Value}
    (hnd : params.keys.Nodup) (h : resolveNamedParameters params namedMaps = .ok r) :
    r.keys.Nodup ∧ (∀ e ∈ r, ∃ s, e.1 = .str s) ∧
      ∀ k : String, r.get (.str k) = (params.get (.str k)).map (resolvedAlias namedMaps k) := by
  obtain ⟨hstr, hkeys, hget⟩ := resolveParameters_ok hnd (fun _ _ hv => hv) h
  refine ⟨hkeys ▸ hnd, fun e he => ?_, fun k => ?_⟩
  · have hmem : e.1.key ∈ params.keys := hkeys ▸ List.mem_map_of_mem he
    obtain ⟨p, hp, hkey⟩ := List.mem_map.mp hmem
    obtain ⟨s, hs⟩ := hstr p hp
    exact ⟨s, Scalar.key_eq_str.mp (by rw [← hkey, hs, Scalar.key_str])⟩
  · rw [hget k]
    show ((Dict.get params (.str k)).map _).or (Dict.get params (.str k)) = _
    cases Dict.get params (.str k) <;> rfl

theorem launchArgumentDefaults_get {env : Environment} {path : String} {defaults : Dict String}
    (h : launchArgumentDefaults env path = .ok defaults) :
    ∃ xmlArguments, env.xmlArguments path = .ok xmlArguments ∧
      ∀ k : String, defaults.get (.str k) = xmlDefault xmlArguments k := by
  obtain ⟨xmlArguments, hxml, h⟩ := bind_ok.mp h
  refine ⟨xmlArguments, hxml, fun k => ?_⟩
  have hfind : ∀ xs : List XmlArgument, Dict.get (xs.filterMap defaultEntry) (.str k) =
      xs.findSome? fun a => if a.name = some k ∧ k ≠ "" then a.default else none := by
    intro xs
    induction xs with
    | nil => rfl
    | cons a xs ih =>
      obtain ⟨name, default⟩ := a
      rw [List.findSome?_cons, List.filterMap_cons]
      cases name with
      | none => simpa [defaultEntry] using ih
      | some name =>
        cases default with
        | none => simpa [defaultEntry] using ih
        | some default =>
          by_cases hk : name = k
          · subst hk
            by_cases hempty : name = ""
            · simpa [defaultEntry, hempty] using ih
            · simp [defaultEntry, hempty]
          · by_cases hempty : name = ""
            · simpa [defaultEntry, hempty, hk] using ih
            · simpa [defaultEntry, hempty, hk] using ih
  rw [← Except.ok.inj h, Dict.get_ofItems_reverse, ← List.filterMap_reverse]
  exact hfind _

theorem launchArgs_get {env : Environment} {defaults : Dict String} {params : Dict Value}
    {targetName : Value} (hnd : params.keys.Nodup) (hstr : ∀ e ∈ params, ∃ s, e.1 = .str s)
    {k : String} (hname : k ≠ "node_name") (hnamespace : k ≠ "robot_namespace") :
    (launchArgs env defaults params targetName).get (.str k) =
      (((params.get (.str k)).map (·.toStr env.isPrintable)).or (defaults.get (.str k))).map
        fun s => .value (.str s) := by
  have hkeys : ∀ e ∈ params, (Scalar.str e.1.toStr).key = e.1.key := by
    intro e he
    obtain ⟨s, hs⟩ := hstr e he
    rw [hs]
    rfl
  let text (v : Value) : LaunchValue := .value (.str (v.toStr env.isPrintable))
  have hmapkeys : Dict.keys (params.map fun e => (Scalar.str e.1.toStr, text e.2)) = params.keys :=
    Dict.keys_map (g := fun s => .str s.toStr) text hkeys
  have hmap : Dict.get (params.map fun e => (Scalar.str e.1.toStr, text e.2)) (.str k) =
      (params.get (.str k)).map text := Dict.get_map (g := fun s => .str s.toStr) text hkeys _
  have hdefaults : Dict.get (defaults.map fun e => (e.1, LaunchValue.value (.str e.2))) (.str k) =
      (defaults.get (.str k)).map fun s => .value (.str s) :=
    Dict.get_map (g := id) (fun s => LaunchValue.value (.str s)) (fun _ _ => rfl) _
  rw [launchArgs, Dict.get_set_of_ne _ _ (by simpa using hnamespace.symm),
    Dict.get_set_of_ne _ _ (by simpa using hname.symm), Dict.get_update (Dict.nodup_ofItems _),
    Dict.get_ofItems (hmapkeys ▸ hnd), hmap, hdefaults]
  cases params.get (.str k) <;> rfl

/-! ## The loop over the active nodes -/

def LaunchAction.target : LaunchAction → Option Key
  | .includeLaunchDescription _ args => match args.get (.str "node_name") with
      | some (.value (.scalar s)) => some s.key
      | _ => none
  | .node _ _ name _ _ => match name with
      | .scalar s => some s.key
      | _ => none

theorem itemName_of_get {item name registry nodeDef : Value} {o : Option Value}
    (h : item.get (.str "name") = .ok o) (ho : o.getD .null = name)
    (hdef : registry.item name = .ok nodeDef) : ∃ s, name = .scalar s ∧ itemName item = some s.key := by
  cases item with
  | dict d =>
    cases h
    cases name with
    | scalar s => exact ⟨s, rfl, by rw [itemName, ho]⟩
    | _ => cases hdef
  | _ => cases h

theorem launchArgs_target (env : Environment) (defaults : Dict String) (params : Dict Value)
    (path : String) (s : Scalar) :
    (LaunchAction.includeLaunchDescription path (launchArgs env defaults params (.scalar s))).target =
      some s.key := by
  have hname : (launchArgs env defaults params (.scalar s)).get (.str "node_name") =
      some (.value (.scalar s)) := by
    rw [launchArgs, Dict.get_set_of_ne _ _ (by decide)]
    exact Dict.get_set_self ..
  rw [LaunchAction.target, hname]

theorem launchAction_target {env : Environment} {registry item : Value} {namedMaps : NamedMaps}
    {action : LaunchAction} (h : launchAction env registry namedMaps item = .ok (some action)) :
    action.target = itemName item := by
  obtain ⟨o, ho, h⟩ := bind_ok.mp h
  obtain ⟨registered, _, h⟩ := bind_ok.mp h
  split_ifs at h
  · cases h
  obtain ⟨nodeDef, hdef, h⟩ := bind_ok.mp h
  obtain ⟨s, hs, hitem⟩ := itemName_of_get ho rfl hdef
  obtain ⟨_, _, h⟩ := bind_ok.mp h
  obtain ⟨_, _, h⟩ := bind_ok.mp h
  obtain ⟨_, _, h⟩ := bind_ok.mp h
  obtain ⟨_, _, h⟩ := bind_ok.mp h
  obtain ⟨params, _, h⟩ := bind_ok.mp h
  rw [hitem]
  rw [hs] at h
  cases hfile : nodeDef.field (.str "launch_file") with
  | some file =>
    simp only [hfile] at h
    obtain ⟨_, _, h⟩ := bind_ok.mp h
    obtain ⟨_, _, h⟩ := bind_ok.mp h
    obtain ⟨_, _, h⟩ := bind_ok.mp h
    cases h
    exact launchArgs_target ..
  | none =>
    simp only [hfile] at h
    cases hexe : nodeDef.field (.str "executable") with
    | some executable =>
      simp only [hexe] at h
      obtain ⟨_, _, h⟩ := bind_ok.mp h
      cases h
      rfl
    | none =>
      simp only [hexe] at h
      cases h

theorem launchActions_named {env : Environment} {registry : Value} {namedMaps : NamedMaps} {n : Key}
    {items : List Value} : ∀ {actions : List LaunchAction},
    launchActions env registry namedMaps items = .ok actions →
    launchActions env registry namedMaps (named n items) =
      .ok (actions.filter (·.target = some n)) := by
  induction items with
  | nil =>
    intro actions h
    cases h
    rfl
  | cons item items ih =>
    intro actions h
    obtain ⟨action, haction, h⟩ := bind_ok.mp h
    obtain ⟨rest, hrest, h⟩ := bind_ok.mp h
    cases h
    have htarget : ∀ a ∈ action.toList, a.target = itemName item := by
      intro a ha
      rw [Option.mem_toList] at ha
      cases ha
      exact launchAction_target haction
    rw [List.filter_append]
    by_cases hn : itemName item = some n
    · have hkeep : action.toList.filter (·.target = some n) = action.toList := by
        rw [List.filter_eq_self]
        intro a ha
        simp [htarget a ha, hn]
      rw [named_cons_self hn, launchActions, haction, hkeep, ih hrest]
      rfl
    · have hdrop : action.toList.filter (·.target = some n) = [] := by
        rw [List.filter_eq_nil_iff]
        intro a ha
        simp [htarget a ha, hn]
      rw [named_cons_of_ne hn, hdrop, ih hrest]
      rfl

theorem unpack_get {o : Option Value} {d : Dict Value} (h : (o.getD (.dict [])).unpack = .ok d)
    (j : Key) : d.get j = o.bind (·.field j) := by
  cases o with
  | none =>
    cases h
    rfl
  | some v =>
    cases v with
    | dict e =>
      cases h
      rfl
    | _ => cases h

theorem unpack_nodup {o : Option Value} {d : Dict Value} (hwf : ∀ v, o = some v → v.WF)
    (h : (o.getD (.dict [])).unpack = .ok d) : d.keys.Nodup := by
  cases o with
  | none =>
    cases h
    exact List.nodup_nil
  | some v =>
    cases v with
    | dict e =>
      cases h
      exact (Value.wf_dict_iff.mp (hwf _ rfl)).1
    | _ => cases h

/-- An item of a node with a launch file includes that file with the node's parameters: the item's
own, then the registry's, then the file's defaults. -/
theorem launchAction_include {env : Environment} {registry item : Value} {namedMaps : NamedMaps}
    {n : Key} {file : Value} {action : Option LaunchAction} (hreg : registry.WF) (hwf : item.WF)
    (hname : itemName item = some n) (hfile : registry.path [n, .str "launch_file"] = some file)
    (h : launchAction env registry namedMaps item = .ok action) :
    ∃ path args xmlArguments, action = some (.includeLaunchDescription path args) ∧
      env.xmlArguments path = .ok xmlArguments ∧
      ∀ k : String, k ≠ "node_name" → k ≠ "robot_namespace" → args.get (.str k) =
        ((((itemParameter (some item) (.str k)).or
            (registry.path [n, .str "parameters", .str k])).map
          fun v => (resolvedAlias namedMaps k v).toStr env.isPrintable).or
            (xmlDefault xmlArguments k)).map fun s => .value (.str s) := by
  obtain ⟨o, ho, h⟩ := bind_ok.mp h
  obtain ⟨registered, hregistered, h⟩ := bind_ok.mp h
  rw [Value.path_cons, Option.bind_eq_some_iff] at hfile
  obtain ⟨nodeDef, hnode, hfile⟩ := hfile
  obtain ⟨entries, rfl⟩ := Value.isDict_iff.mp (Value.isDict_of_field hnode)
  obtain ⟨d, rfl⟩ := isDict_of_itemName hname
  cases ho
  obtain ⟨s, hs, hkey⟩ : ∃ s, (Dict.get d (.str "name")).getD .null = .scalar s ∧ s.key = n := by
    rw [itemName] at hname
    cases hd : (Dict.get d (.str "name")).getD .null with
    | scalar s =>
      rw [hd] at hname
      exact ⟨s, rfl, Option.some.inj hname⟩
    | _ =>
      rw [hd] at hname
      cases hname
  subst hkey
  have hitem : (Value.dict entries).item (.scalar s) = .ok nodeDef := by
    rw [Value.field_dict] at hnode
    simp [Value.item, Value.getItem, hnode]
  have hregistered' : registered = true := by
    rw [hs] at hregistered
    rw [Value.field_dict] at hnode
    have := Except.ok.inj hregistered
    rw [← this, hnode]
    rfl
  rw [if_neg (by simp [hregistered']), hs, hitem] at h
  obtain ⟨_, hdef, h⟩ := bind_ok.mp h
  cases hdef
  obtain ⟨rp, hrp, h⟩ := bind_ok.mp h
  obtain ⟨dp, hdp, h⟩ := bind_ok.mp h
  obtain ⟨registryParams, hregistryParams, h⟩ := bind_ok.mp h
  obtain ⟨deploymentParams, hdeploymentParams, h⟩ := bind_ok.mp h
  obtain ⟨resolved, hresolved, h⟩ := bind_ok.mp h
  have hfile' : nodeDef.field (.str "launch_file") = some file := by
    rw [Value.path_cons, Option.bind_eq_some_iff] at hfile
    obtain ⟨v, hv, hvfile⟩ := hfile
    cases hvfile
    exact hv
  rw [hfile'] at h
  obtain ⟨share, _, h⟩ := bind_ok.mp h
  obtain ⟨launchFile, _, h⟩ := bind_ok.mp h
  obtain ⟨defaults, hdefaults, h⟩ := bind_ok.mp h
  cases h
  obtain ⟨xmlArguments, hxml, hdefault⟩ := launchArgumentDefaults_get hdefaults
  refine ⟨_, _, xmlArguments, rfl, hxml, fun k hname hnamespace => ?_⟩
  -- the two parameter mappings of the node
  obtain ⟨nodeEntries, rfl⟩ := Value.isDict_iff.mp (Value.isDict_of_field hfile')
  cases hrp
  cases hdp
  have hnodewf : (Value.dict nodeEntries).WF := hreg.field hnode
  have hrnodup := unpack_nodup (fun v hv => hnodewf.field hv) hregistryParams
  have hdnodup := unpack_nodup (fun v hv => hwf.field hv) hdeploymentParams
  obtain ⟨hnodup, hstr, hget⟩ := resolveNamedParameters_ok (Dict.nodup_update hrnodup _) hresolved
  have hregistry : (Value.dict entries).path [s.key, .str "parameters", .str k] =
      registryParams.get (.str k) := by
    rw [unpack_get hregistryParams, Value.path_cons, hnode]
    cases hp : Dict.get nodeEntries (.str "parameters") <;> simp [Value.path_cons, hp]
  have hdeployment : itemParameter (some (.dict d)) (.str k) = deploymentParams.get (.str k) := by
    rw [unpack_get hdeploymentParams]
    cases hp : Dict.get d (.str "parameters") <;> simp [itemParameter, Value.path_cons, hp]
  rw [launchArgs_get hnodup hstr hname hnamespace, hget k, hdefault k, Dict.get_update hdnodup,
    hregistry, hdeployment, Option.map_map]
  rfl

/-! ## The precedence rule -/

theorem readConfiguration_ok {env : Environment} {layers : Layers} {bringupDir : String}
    {scenarioDirectory : Option String} {config : Configuration}
    (hread : layers.Read env bringupDir scenarioDirectory)
    (h : readConfiguration env = .ok (some config)) :
    ∃ registry deployment nodes, overlayRegistry layers.registry layers.scenarioRegistry = .ok registry ∧
      overlayDeployment layers.deployment layers.scenarioDeployment = .ok deployment ∧
      (∃ o, registry.get (.str "node_registry") = .ok o ∧ config.nodeRegistry = o.getD (.dict [])) ∧
      activeNodes deployment env.hostname = .ok nodes ∧ nodes.iter = .ok config.activeNodes := by
  obtain ⟨dir, hdir, h⟩ := bind_ok.mp h
  cases hread.share.symm.trans hdir
  rw [hread.scenario] at h
  dsimp only at h
  split_ifs at h
  · cases h
  obtain ⟨_, hregistry, h⟩ := bind_ok.mp h
  cases hread.registry.symm.trans hregistry
  obtain ⟨_, hdeployment, h⟩ := bind_ok.mp h
  cases hread.deployment.symm.trans hdeployment
  obtain ⟨_, hscenarioRegistry, h⟩ := bind_ok.mp h
  cases hread.scenarioRegistry.symm.trans hscenarioRegistry
  obtain ⟨registry, hmerged, h⟩ := bind_ok.mp h
  obtain ⟨_, hscenarioDeployment, h⟩ := bind_ok.mp h
  cases hread.scenarioDeployment.symm.trans hscenarioDeployment
  obtain ⟨deployment, hdeployed, h⟩ := bind_ok.mp h
  obtain ⟨o, ho, h⟩ := bind_ok.mp h
  obtain ⟨nodes, hnodes, h⟩ := bind_ok.mp h
  obtain ⟨_, _, h⟩ := bind_ok.mp h
  split at h
  · cases h
  split at h
  · split_ifs at h
    cases h
  obtain ⟨items, hiter, h⟩ := bind_ok.mp h
  obtain ⟨_, _, h⟩ := bind_ok.mp h
  cases h
  exact ⟨registry, deployment, nodes, hmerged, hdeployed, ⟨o, ho, rfl⟩, hnodes, hiter⟩

theorem activeNodes_wf {d nodes : Value} {host : String} (hwf : d.WF)
    (h : activeNodes d host = .ok nodes) : nodes.WF := by
  rcases activeNodes_ok hwf h with ⟨_, rfl⟩ | ⟨_, _, ⟨_, rfl⟩ | ⟨x, hx, hnodes⟩⟩
  · simp [Value.wf_list_iff]
  · cases hw : hostNodes d "*" with
    | none => simp [Value.wf_list_iff]
    | some w => exact hwf.path hw
  · refine mergeConfig_wf ?_ (hwf.path hx) hnodes
    cases hw : hostNodes d "*" with
    | none => simp
    | some w => exact hwf.path hw

/-- Only a list yields items with a name. -/
theorem iter_eq_elements {v : Value} {xs : List Value} {n : Key} (h : v.iter = .ok xs)
    (hn : some n ∈ xs.map itemName) : xs = v.elements := by
  cases v with
  | list ys =>
    cases h
    rfl
  | dict d =>
    cases h
    simp [itemName] at hn
  | scalar s =>
    cases s with
    | str t =>
      cases h
      simp [itemName] at hn
    | _ => cases h

/-- **Parameter precedence.** An active node with a launch file includes that file once, and each
argument is the text of the first layer's value, or the file's default. -/
theorem launch_argument_effective (env : Environment) (layers : Layers) (hshape : layers.Shape)
    {bringupDir : String} {scenarioDirectory : Option String}
    (hread : layers.Read env bringupDir scenarioDirectory)
    {config : Configuration} (hconfig : readConfiguration env = .ok (some config))
    {actions : List LaunchAction} (hactions : buildLaunchActions env = .ok actions)
    {n : Key} (hn : n ≠ .none) (hactive : some n ∈ config.activeNodes.map itemName)
    {file : Value} (hfile : config.nodeRegistry.path [n, .str "launch_file"] = some file) :
    ∃ path args xmlArguments,
      actions.filter (·.target = some n) = [.includeLaunchDescription path args] ∧
      env.xmlArguments path = .ok xmlArguments ∧
      ∀ k : String, k ≠ "node_name" → k ≠ "robot_namespace" → args.get (.str k) =
        (effectiveArgument env layers config.namedMaps xmlArguments n k).map
          fun s => .value (.str s) := by
  obtain ⟨registry, deployment, nodes, hregistry, hdeployment, ⟨o, ho, hnodeRegistry⟩, hnodes, hiter⟩ :=
    readConfiguration_ok hread hconfig
  have hregwf := overlayRegistry_wf hregistry
  have hdepwf := overlayDeployment_wf hdeployment
  have hparams : ∀ k, config.nodeRegistry.path [n, .str "parameters", k] =
      registryParameter registry n k := by
    intro k
    rw [hnodeRegistry, registryParameter, Value.path_cons (k := .str "node_registry")]
    cases registry with
    | dict d =>
      cases ho
      rw [Value.field_dict]
      cases Dict.get d (.str "node_registry") <;> rfl
    | _ => cases ho
  have hnodewf : config.nodeRegistry.WF := by
    rw [hnodeRegistry]
    cases registry with
    | dict d =>
      cases ho
      cases hd : Dict.get d (.str "node_registry") with
      | none => simp [Value.wf_dict_iff]
      | some v => exact hregwf.field hd
    | _ => cases ho
  -- the one active item of the name
  have hitems : config.activeNodes = nodes.elements := iter_eq_elements hiter hactive
  rw [hitems] at hactive
  obtain ⟨eh, hh, hhparam⟩ := overlayDeployment_nodeList env.hostname hn hshape.deployment
    hshape.scenarioDeployment hdeployment
  obtain ⟨ew, hw, hwparam⟩ := overlayDeployment_nodeList "*" hn hshape.deployment
    hshape.scenarioDeployment hdeployment
  obtain ⟨e, hnamed, hparam⟩ := activeNodes_named hn hdepwf hh hw hnodes
  obtain ⟨item, hitem, hname⟩ := List.mem_map.mp hactive
  have hmem : item ∈ named n nodes.elements := by simp [named, hitem, hname]
  cases e with
  | none =>
    rw [hnamed] at hmem
    cases hmem
  | some active =>
    rw [hnamed, Option.toList_some, List.mem_singleton] at hmem
    subst hmem
    have hitemwf : item.WF := by
      have hnodeswf := activeNodes_wf hdepwf hnodes
      cases nodes with
      | list l => exact Value.wf_list_iff.mp hnodeswf item hitem
      | _ => cases hitem
    -- the loop acts on it once
    rw [buildLaunchActions, hconfig] at hactions
    have hloop := launchActions_named (n := n) hactions
    rw [hitems, hnamed] at hloop
    obtain ⟨action, haction, hloop⟩ := bind_ok.mp hloop
    obtain ⟨path, args, xmlArguments, rfl, hxml, hargs⟩ :=
      launchAction_include hnodewf hitemwf hname hfile haction
    refine ⟨path, args, xmlArguments, (Except.ok.inj hloop).symm, hxml, fun k hkn hkr => ?_⟩
    rw [hargs k hkn hkr, hparams, hparam (by simp), hhparam, hwparam,
      overlayRegistry_parameter n _ hshape.scenarioRegistry hregistry, ← layers.effective_eq,
      effectiveArgument]
    cases layers.effective env.hostname n (.str k) <;> rfl

/-! ## An example launch -/

section Example

/-- A mapping of strings to scalars. -/
def flatMapping (params : List (String × Scalar)) : Value :=
  .mapping (params.map fun p => (p.1, .scalar p.2))

theorem flatMapping_flat (params : List (String × Scalar)) : FlatMapping (flatMapping params) := by
  have hfield : ∀ j v, (flatMapping params).field j = some v →
      (∃ s, v = .scalar s) ∧ ∃ s, j = .str s := by
    intro j v h
    obtain ⟨k, rfl, hmem⟩ := Dict.mem_of_get h
    rw [List.map_map] at hmem
    obtain ⟨p, _, hp⟩ := List.mem_map.mp hmem
    cases hp
    exact ⟨⟨p.2, rfl⟩, p.1, rfl⟩
  exact ⟨rfl, fun j v h => (hfield j v h).1, fun j v h => (hfield j v h).2⟩

/-- A deployment map of one node on one host. -/
def nodeDeployment (host name : String) (params : List (String × Scalar)) : Value :=
  .mapping [("host_assignments", .mapping [(host, .mapping
    [("nodes", .list [.mapping [("name", .str name), ("parameters", flatMapping params)]])])])]

theorem hostNodes_nodeDeployment (host name : String) (params : List (String × Scalar)) (h : String) :
    hostNodes (nodeDeployment host name params) h = if host = h then
      some (.list [.mapping [("name", .str name), ("parameters", flatMapping params)]]) else none := by
  by_cases hh : host = h <;> simp [hostNodes, nodeDeployment, Value.mapping, Value.path_cons, hh]

theorem nodeDeployment_shape (host name : String) (params : List (String × Scalar)) :
    DeploymentShape (nodeDeployment host name params) := by
  have hlist : ∀ h l, hostNodes (nodeDeployment host name params) h = some (.list l) →
      l = [.mapping [("name", .str name), ("parameters", flatMapping params)]] := by
    intro h l hl
    rw [hostNodes_nodeDeployment] at hl
    split_ifs at hl
    cases hl
    rfl
  refine ⟨fun h => ?_, fun h v hv => ?_, fun h l hl => ?_, fun h l hl v hv => ?_,
    fun h l hl v hv p hp => ?_⟩
  · refine .cons rfl fun w hw => ?_
    cases hw
    refine .cons rfl fun w hw => .nil ?_
    rw [Value.mapping, Value.field_dict, List.map_cons, Dict.get_cons] at hw
    split_ifs at hw
    · cases hw
      rfl
    · cases hw
  · rw [hostNodes_nodeDeployment] at hv
    split_ifs at hv
    cases hv
    exact ⟨_, rfl⟩
  · rw [hlist h l hl]
    exact fun n _ => List.length_filter_le ..
  · rw [hlist h l hl, List.mem_singleton] at hv
    subst hv
    simp [isRemove, Value.mapping, Value.isTrue]
  · rw [hlist h l hl, List.mem_singleton] at hv
    subst hv
    have : p = flatMapping params := by simpa [Value.mapping] using hp.symm
    exact this ▸ flatMapping_flat params

/-- A registry with one node and one named map. -/
def imuNodeRegistry : Value :=
  .mapping [("infrastructure_configs", .mapping
      [("topics", .mapping [("relative_path", .str "config/topics.yaml")])]),
    ("node_registry", .mapping [("imu_node1", .mapping [("launch_file", .str "imu_node.launch.xml"),
      ("parameters", flatMapping [("imu_topic", .str "imu1")])])])]

/-- The baseline runs the node everywhere, and the scenario sets its verbosity on one computer. -/
def imuLayers : Layers where
  registry := ⟨imuNodeRegistry, by
    simp [imuNodeRegistry, flatMapping, Value.mapping, Value.wf_dict_iff]⟩
  deployment := ⟨nodeDeployment "*" "imu_node1" [("loop1_rate", .int 10)], by
    simp [nodeDeployment, flatMapping, Value.mapping, Value.wf_dict_iff, Value.wf_list_iff]⟩
  scenarioRegistry := none
  scenarioDeployment := some
    ⟨nodeDeployment "DevComputer2" "imu_node1" [("verbosity_level", .str "WARN")], by
      simp [nodeDeployment, flatMapping, Value.mapping, Value.wf_dict_iff, Value.wf_list_iff]⟩

def topicsFile : Yaml :=
  ⟨.mapping [("topics", flatMapping [("imu1", .str "imu1/imu")])], by
    simp [flatMapping, Value.mapping, Value.wf_dict_iff]⟩

def imuEnvironment : Environment where
  scenario := "bench"
  hostname := "DevComputer2"
  isDir path := path = "share/config/scenarios/bench"
  file path :=
    if path = "share/config/node_registry.yaml" then some (.ok imuLayers.registry)
    else if path = "share/config/deployment_map.yaml" then some (.ok imuLayers.deployment)
    else if path = "share/config/scenarios/bench/deployment_map.yaml" then
      imuLayers.scenarioDeployment.map .ok
    else if path = "share/config/topics.yaml" then some (.ok topicsFile)
    else none
  packageShare _ := .ok "share"
  xmlArguments _ := .ok [⟨some "loop2_rate", some "0"⟩, ⟨some "loop1_rate", some "1"⟩]
  isPrintable _ := true

theorem imuLayers_shape : imuLayers.Shape := by
  refine ⟨nodeDeployment_shape _ _ _, fun r hr => ?_, fun d hd => ?_⟩
  · cases hr
  · cases hd
    exact nodeDeployment_shape _ _ _

/-- The scenario's verbosity, the baseline's rate, the registry's topic through the named map and the
launch file's own default reach the IMU node. -/
theorem imu_launch_arguments : ∃ actions path args,
    buildLaunchActions imuEnvironment = .ok actions ∧
      actions.filter (·.target = some (.str "imu_node1")) = [.includeLaunchDescription path args] ∧
      args.get (.str "verbosity_level") = some (.value (.str "WARN")) ∧
      args.get (.str "loop1_rate") = some (.value (.str "10")) ∧
      args.get (.str "imu_topic") = some (.value (.str "imu1/imu")) ∧
      args.get (.str "loop2_rate") = some (.value (.str "0")) ∧
      args.get (.str "loop3_rate") = none := by
  obtain ⟨actions, hactions⟩ : ∃ actions, buildLaunchActions imuEnvironment = .ok actions := ⟨_, rfl⟩
  obtain ⟨config, hconfig, hmaps, hactive, hfile⟩ : ∃ config,
      readConfiguration imuEnvironment = .ok (some config) ∧
        config.namedMaps = [(.str "topics", [(.str "imu1", .str "imu1/imu")])] ∧
        some (.str "imu_node1") ∈ config.activeNodes.map itemName ∧
        config.nodeRegistry.path [.str "imu_node1", .str "launch_file"] =
          some (.str "imu_node.launch.xml") := ⟨_, rfl, rfl, by decide, rfl⟩
  have hread : imuLayers.Read imuEnvironment "share" (some "share/config/scenarios/bench") :=
    ⟨rfl, rfl, rfl, rfl, rfl, rfl⟩
  obtain ⟨path, args, xmlArguments, hinclude, hxml, hargs⟩ :=
    launch_argument_effective imuEnvironment imuLayers imuLayers_shape hread hconfig hactions
      (by decide : Key.str "imu_node1" ≠ .none) hactive hfile
  cases hxml
  rw [hmaps] at hargs
  refine ⟨actions, path, args, hactions, hinclude, ?_, ?_, ?_, ?_, ?_⟩
  all_goals
    rw [hargs _ (by decide) (by decide)]
    rfl

end Example

end Orchestrator
