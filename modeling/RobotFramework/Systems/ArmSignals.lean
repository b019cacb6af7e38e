import RobotFramework.Systems.ProcessInit

/-!
# The number of arm signals

`ArmedStateManagerNode` subscribes to the `ready_to_arm` topic of each node in its list, and tells its
process how many signals to expect. The number is cast to 8 bits, the list is not.
-/

namespace Systems

open History BaseNode

/-- The number of signals a call configures. -/
def ProcessCall.expectedArmSignals : ProcessCall → Option Nat
  | .setConfig expectedArmSignals _ => some expectedArmSignals
  | _ => none

/-- The number of signals the process was last configured to expect. -/
def expectedArmSignals (d : NodeData) : Option Nat :=
  lastSome ProcessCall.expectedArmSignals d.processCalls

/-- The process, once configured, expects one signal for each subscription. -/
def SignalsAgree (d : NodeData) : Prop :=
  ∀ expected, expectedArmSignals d = some expected → expected = d.readyToArmSubs.length

/-- The node has the subscriptions of a list and its process the number of its entries, in 8 bits. -/
structure Configured (nodes_to_monitor : List String) (d : NodeData) : Prop where
  nodesToMonitor : d.nodesToMonitor = nodes_to_monitor
  readyToArmSubs : d.readyToArmSubs = nodes_to_monitor
  expected : expectedArmSignals d = some (nodes_to_monitor.length % 2 ^ 8)

section Configured

variable {nodes_to_monitor : List String} {d : NodeData}

theorem Configured.signalsAgree_iff (h : Configured nodes_to_monitor d) :
    SignalsAgree d ↔ nodes_to_monitor.length < 256 := by
  unfold SignalsAgree
  rw [h.expected, h.readyToArmSubs]
  constructor
  · intro hagree
    rw [← hagree _ rfl]
    exact Nat.mod_lt _ (by decide)
  · rintro hlt expected hexpected
    rw [← Option.some.inj hexpected]
    exact Nat.mod_eq_of_lt hlt

/-- `initData` configures the process, whatever it returns. -/
theorem configured_initData (hnodes : d.nodesToMonitor = nodes_to_monitor)
    (hsubs : d.readyToArmSubs = nodes_to_monitor) (status : Bool) :
    Configured nodes_to_monitor ((ArmedStateManagerNode.initData status).effect d) := by
  refine ⟨hnodes, hsubs, ?_⟩
  show lastSome _ (d.processCalls ++ _) = _
  rw [lastSome_append]
  dsimp only
  rw [hnodes]
  cases status <;> rfl

theorem Configured.reset (p : Parameters) {q : Process NodeData} (hstarted : Started q)
    (h : Configured nodes_to_monitor q.node.user) (status : Bool) :
    Configured nodes_to_monitor
      (q.step p ((SystemNode.armedStateManager nodes_to_monitor).resetCall status)).node.user := by
  have huser : (q.step p ((SystemNode.armedStateManager nodes_to_monitor).resetCall status)).node.user =
      (ArmedStateManagerNode.initData status).effect q.node.user := by
    rw [step_of_alive p hstarted.alive]
    show (BaseNode.reset .succeeding (ArmedStateManagerNode.initData status) q.node).2.user = _
    rw [reset_eq .succeeding _ hstarted.restartable hstarted.timers, if_neg (by decide)]
    split_ifs <;> rfl
  rw [huser]
  exact configured_initData h.nodesToMonitor h.readyToArmSubs status

theorem resetTrace_configured (p : Parameters) (resets : List Bool) :
    ∀ {q : Process NodeData}, Started q → Configured nodes_to_monitor q.node.user →
      ∀ r ∈ resetTrace p (.armedStateManager nodes_to_monitor) q resets,
        Configured nodes_to_monitor r.node.user := by
  induction resets with
  | nil =>
    intro q _ hq r hr
    rw [resetTrace, List.mem_singleton] at hr
    rwa [hr]
  | cons status resets ih =>
    intro q hstarted hq r hr
    rw [resetTrace, List.mem_cons] at hr
    rcases hr with rfl | hr
    · exact hq
    · exact ih (hstarted.reset p _ status).1 (hq.reset p hstarted status) r hr

theorem init_user_armedStateManager (p : Parameters) (nodes_to_monitor : List String)
    (loggerInit first : Bool) :
    (init p ((SystemNode.armedStateManager nodes_to_monitor).initHooks loggerInit first)
        (.initial .initial)).2.user =
      if baseConfigLoads p loggerInit then
        (ArmedStateManagerNode.initData first).effect
          (ArmedStateManagerNode.initPubSubs.effect
            ((ArmedStateManagerNode.loadConfig nodes_to_monitor).effect .initial))
      else .initial := by
  have hloads : ((verbosityLevel p.verbosity_level).isSome && loggerInit) =
      baseConfigLoads p loggerInit := rfl
  cases hbase : baseConfigLoads p loggerInit with
  | false =>
    rw [hbase] at hloads
    exact init_user_of_not_loaded p _ _ hloads
  | true =>
    refine init_user_of_initData p _ _ ?_
    show (SystemNode.initHooks (.armedStateManager nodes_to_monitor) loggerInit true).succeed p = true
    rw [initHooks_succeed, hbase, initData_succeeds]
    rfl

theorem mainTrace_configured (p : Parameters) (nodes_to_monitor : List String) (loggerInit first : Bool)
    (resets : List Bool) (hloads : baseConfigLoads p loggerInit = true) :
    ∀ q ∈ mainTrace p (.armedStateManager nodes_to_monitor) loggerInit first resets,
      Configured nodes_to_monitor q.node.user := by
  obtain ⟨initialized, hnode, -, hcases⟩ :=
    mainTrace_cases p (.armedStateManager nodes_to_monitor) loggerInit first resets
  have hinit : Configured nodes_to_monitor initialized.node.user := by
    rw [hnode, init_user_armedStateManager, if_pos hloads]
    refine configured_initData ?_ ?_ first
    · rfl
    · rfl
  intro q hq
  rcases hcases with ⟨-, htrace⟩ | ⟨-, started, hstarted, -, huser, htrace⟩
  · rw [htrace, List.mem_singleton] at hq
    rwa [hq]
  · rw [htrace, List.mem_cons] at hq
    rcases hq with rfl | hq
    · exact hinit
    · exact resetTrace_configured p resets hstarted (huser ▸ hinit) q hq

/-- Where the base configuration does not load, the process is never configured. -/
theorem mainTrace_unconfigured (p : Parameters) (nodes_to_monitor : List String)
    (loggerInit first : Bool) (resets : List Bool) (hloads : baseConfigLoads p loggerInit = false) :
    ∀ q ∈ mainTrace p (.armedStateManager nodes_to_monitor) loggerInit first resets,
      expectedArmSignals q.node.user = none := by
  obtain ⟨initialized, hnode, -, hcases⟩ :=
    mainTrace_cases p (.armedStateManager nodes_to_monitor) loggerInit first resets
  intro q hq
  rcases hcases with ⟨-, htrace⟩ | ⟨hs, -⟩
  · rw [htrace, List.mem_singleton] at hq
    rw [hq, hnode, init_user_armedStateManager, hloads]
    rfl
  · rw [initHooks_succeed, hloads] at hs
    cases hs

end Configured

/-- **Arm signals.** In a run in the order of `main` the process always expects as many signals as there
are subscriptions exactly if the list has fewer than 256 entries, or `init` does not get to it. -/
theorem signals_agree_iff (p : Parameters) (nodes_to_monitor : List String) (loggerInit first : Bool)
    (resets : List Bool) :
    (∀ q ∈ mainTrace p (.armedStateManager nodes_to_monitor) loggerInit first resets,
        SignalsAgree q.node.user) ↔
      baseConfigLoads p loggerInit = false ∨ nodes_to_monitor.length < 256 := by
  cases hloads : baseConfigLoads p loggerInit with
  | false =>
    refine ⟨fun _ => .inl rfl, fun _ q hq expected hexpected => ?_⟩
    rw [mainTrace_unconfigured p nodes_to_monitor loggerInit first resets hloads q hq] at hexpected
    cases hexpected
  | true =>
    have hconfigured := mainTrace_configured p nodes_to_monitor loggerInit first resets hloads
    constructor
    · intro hagree
      obtain ⟨q, hq⟩ : ∃ q, q ∈
          mainTrace p (.armedStateManager nodes_to_monitor) loggerInit first resets := by
        obtain ⟨initialized, -, -, ⟨-, htrace⟩ | ⟨-, started, -, -, -, htrace⟩⟩ :=
          mainTrace_cases p (.armedStateManager nodes_to_monitor) loggerInit first resets
        · exact ⟨initialized, htrace ▸ List.mem_cons_self⟩
        · exact ⟨initialized, htrace ▸ List.mem_cons_self⟩
      exact .inr ((hconfigured q hq).signalsAgree_iff.1 (hagree q hq))
    · rintro (hfalse | hlength)
      · cases hfalse
      · exact fun q hq => (hconfigured q hq).signalsAgree_iff.2 hlength

/-- With 256 entries the process is told to expect no signal at all. -/
theorem signals_disagree : ¬ ∀ q ∈ mainTrace defaultParameters
    (.armedStateManager (List.replicate 256 "imu_node1")) true true [], SignalsAgree q.node.user := by
  intro hagree
  have hmem : ∃ q, q ∈ mainTrace defaultParameters
      (.armedStateManager (List.replicate 256 "imu_node1")) true true [] :=
    ⟨_, List.mem_cons_self⟩
  obtain ⟨q, hq⟩ := hmem
  have hconfigured := mainTrace_configured defaultParameters _ true true [] rfl q hq
  have hlength := hconfigured.signalsAgree_iff.1 (hagree q hq)
  rw [List.length_replicate] at hlength
  exact absurd hlength (by decide)

end Systems
