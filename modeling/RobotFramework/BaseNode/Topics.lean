import Mathlib.Data.List.Basic

/-!
# Robot namespace and topic names

`baseLoadConfig` stores the `robot_namespace` parameter in one of several forms, and
`getNamespacedTopic` joins a topic to any of them. A `std::string` is the list of its characters.

A namespace of slashes is stored as `/` or as the empty string, and any other one with a slash in
front and none at the end; only for the first kind do the nodes agree on the arm-command topic.
-/

namespace BaseNode

/-! ## The code -/

/-- `while (s.size() > minimum && s.back() == '/') s.pop_back()`, on the reversed string. -/
def popSlashesRev (minimum : Nat) : List Char → List Char
  | [] => []
  | c :: s => if minimum < s.length + 1 ∧ c = '/' then popSlashesRev minimum s else c :: s

/-- `while (s.size() > minimum && s.back() == '/') s.pop_back()`. -/
def popSlashes (minimum : Nat) (s : List Char) : List Char := (popSlashesRev minimum s.reverse).reverse

/-- `m_robotNamespace`, as `baseLoadConfig` leaves it for a `robot_namespace` parameter. -/
def robotNamespace (parameter : List Char) : List Char :=
  let m_robotNamespace := popSlashes 1 parameter
  if m_robotNamespace = ['/'] then []
  else if m_robotNamespace = [] ∨ m_robotNamespace.head? ≠ some '/' then '/' :: m_robotNamespace
  else m_robotNamespace

/-- `BaseNode::getNamespacedTopic`. -/
def getNamespacedTopic (m_robotNamespace topic : List Char) : List Char :=
  let robotNamespace := popSlashes 0 m_robotNamespace
  let relativeTopic := topic.dropWhile (· = '/')
  if relativeTopic = [] then if robotNamespace = [] then ['/'] else robotNamespace
  else if robotNamespace = [] then '/' :: relativeTopic
  else robotNamespace ++ '/' :: relativeTopic

/-- The topic `SystemMonitorNode::initPubSubs` subscribes to for arm commands. -/
def systemMonitorArmCommandTopic (m_robotNamespace : List Char) : List Char :=
  m_robotNamespace ++ "arm_command".toList

/-- The topic `ArmedStateManagerNode::initPubSubs` publishes arm commands on. -/
def armedStateManagerArmCommandTopic (m_robotNamespace topic_arm_command : List Char) : List Char :=
  getNamespacedTopic m_robotNamespace topic_arm_command

/-- The topic `ServoHatNode::initPubSubs` subscribes to for arm commands. -/
def servoHatArmCommandTopic (m_robotNamespace topic_arm_command : List Char) : List Char :=
  getNamespacedTopic m_robotNamespace topic_arm_command

/-- The fully qualified name of a topic of a node: ROS 2 uses an absolute name as it is and puts the
namespace of the node in front of a relative one. -/
def qualified (nodeNamespace name : List Char) : List Char :=
  if name.head? = some '/' then name
  else if nodeNamespace = ['/'] then '/' :: name
  else nodeNamespace ++ '/' :: name

/-! ## Removing trailing slashes -/

theorem popSlashesRev_of_ne {minimum : Nat} {c : Char} (hc : c ≠ '/') (s : List Char) :
    popSlashesRev minimum (c :: s) = c :: s := by
  unfold popSlashesRev
  rw [if_neg (fun h => hc h.2)]

theorem popSlashes_of_getLast {minimum : Nat} {s : List Char} (h : s.getLast? ≠ some '/') :
    popSlashes minimum s = s := by
  unfold popSlashes
  cases hs : s.reverse with
  | nil =>
    rw [List.reverse_eq_nil_iff.mp hs]
    rfl
  | cons c t =>
    have hlast : s.getLast? = some c := by
      rw [← List.head?_reverse, hs, List.head?_cons]
    have hc : c ≠ '/' := by
      intro he
      exact h (by rw [hlast, he])
    rw [popSlashesRev_of_ne hc, ← hs, List.reverse_reverse]

theorem popSlashesRev_ne {minimum : Nat} (hmin : minimum ≤ 1) {s : List Char}
    (h : ∃ c ∈ s, c ≠ '/') : ∃ c t, popSlashesRev minimum s = c :: t ∧ c ≠ '/' := by
  induction s with
  | nil =>
    obtain ⟨c, hc, _⟩ := h
    exact absurd hc List.not_mem_nil
  | cons a s ih =>
    by_cases ha : a = '/'
    · have hs : ∃ c ∈ s, c ≠ '/' := by
        obtain ⟨c, hc, hne⟩ := h
        rcases List.mem_cons.mp hc with rfl | hc
        · exact absurd ha hne
        · exact ⟨c, hc, hne⟩
      have hlen : 0 < s.length := by
        obtain ⟨c, hc, _⟩ := hs
        exact List.length_pos_of_mem hc
      unfold popSlashesRev
      rw [if_pos ⟨by omega, ha⟩]
      exact ih hs
    · exact ⟨a, s, popSlashesRev_of_ne ha s, ha⟩

/-- Of a string of slashes the loop of `baseLoadConfig` leaves one, if there is one. -/
theorem popSlashesRev_slashes {s : List Char} (h : ∀ c ∈ s, c = '/') :
    popSlashesRev 1 s = s.take 1 := by
  induction s with
  | nil => rfl
  | cons a s ih =>
    have ha : a = '/' := h a List.mem_cons_self
    have hs : ∀ c ∈ s, c = '/' := fun c hc => h c (List.mem_cons_of_mem a hc)
    unfold popSlashesRev
    by_cases hlen : 1 < s.length + 1
    · rw [if_pos ⟨hlen, ha⟩, ih hs]
      cases s with
      | nil => simp at hlen
      | cons b s => simp [ha, hs b List.mem_cons_self]
    · have hnil : s = [] := List.length_eq_zero_iff.mp (by omega)
      rw [if_neg (fun hc => hlen hc.1), hnil]
      rfl

/-! ## The stored namespace -/

theorem robotNamespace_slashes {r : List Char} (h : ∀ c ∈ r, c = '/') :
    robotNamespace r = if r = [] then ['/'] else [] := by
  have hpop : popSlashes 1 r = if r = [] then [] else ['/'] := by
    unfold popSlashes
    rw [popSlashesRev_slashes (fun c hc => h c (List.mem_reverse.mp hc))]
    cases hr : r.reverse with
    | nil => simp [List.reverse_eq_nil_iff.mp hr]
    | cons a s =>
      have ha : a = '/' := h a (List.mem_reverse.mp (hr ▸ List.mem_cons_self))
      have hne : r ≠ [] := by
        rintro rfl
        simp at hr
      simp [ha, hne]
  unfold robotNamespace
  rw [hpop]
  split_ifs <;> simp_all

/-- Any other parameter is stored with a slash in front and none at the end. -/
theorem robotNamespace_of_ne {r : List Char} (h : ∃ c ∈ r, c ≠ '/') :
    (robotNamespace r).head? = some '/' ∧ (robotNamespace r).getLast? ≠ some '/' := by
  obtain ⟨c, t, hpop, hc⟩ := popSlashesRev_ne (Nat.le_refl 1) (s := r.reverse)
    (by simpa using h)
  have hlast : (popSlashes 1 r).getLast? = some c := by
    unfold popSlashes
    rw [List.getLast?_reverse, hpop, List.head?_cons]
  have hne : popSlashes 1 r ≠ [] := by
    intro he
    rw [he] at hlast
    simp at hlast
  have hslash : popSlashes 1 r ≠ ['/'] := by
    intro he
    rw [he] at hlast
    exact hc (Option.some.inj hlast).symm
  unfold robotNamespace
  rw [if_neg hslash]
  split_ifs with hfront
  · refine ⟨rfl, ?_⟩
    rw [List.getLast?_cons, hlast, Option.getD_some]
    simpa using hc
  · push Not at hfront
    refine ⟨hfront.2, ?_⟩
    rw [hlast]
    simpa using hc

/-! ## The arm-command topic -/

theorem getNamespacedTopic_armCommand {m : List Char} (h : m.getLast? ≠ some '/') :
    getNamespacedTopic m "arm_command".toList = m ++ "/arm_command".toList := by
  have hrel : "arm_command".toList.dropWhile (· = '/') = "arm_command".toList := by decide
  have hslash : "/arm_command".toList = '/' :: "arm_command".toList := by decide
  unfold getNamespacedTopic
  rw [popSlashes_of_getLast h, hrel, if_neg (by decide), hslash]
  split_ifs with hm
  · rw [hm, List.nil_append]
  · rfl

/-- **Arm-command topic.** The monitor listens where the armed-state manager publishes and the servo
hat listens exactly if the `robot_namespace` parameter has no character but slashes. -/
theorem armCommand_topics_agree_iff (r publisherNamespace subscriberNamespace : List Char) :
    (qualified ['/'] (systemMonitorArmCommandTopic (robotNamespace r)) =
        qualified publisherNamespace
          (armedStateManagerArmCommandTopic (robotNamespace r) "arm_command".toList) ∧
      qualified ['/'] (systemMonitorArmCommandTopic (robotNamespace r)) =
        qualified subscriberNamespace
          (servoHatArmCommandTopic (robotNamespace r) "arm_command".toList)) ↔
      ∀ c ∈ r, c = '/' := by
  show (_ = qualified publisherNamespace (getNamespacedTopic _ _) ∧
    _ = qualified subscriberNamespace (getNamespacedTopic _ _)) ↔ _
  by_cases h : ∀ c ∈ r, c = '/'
  · rw [robotNamespace_slashes h]
    refine ⟨fun _ => h, fun _ => ?_⟩
    have htopic : getNamespacedTopic (if r = [] then ['/'] else []) "arm_command".toList =
        "/arm_command".toList := by
      split_ifs <;> decide
    have hmonitor : qualified ['/'] (systemMonitorArmCommandTopic (if r = [] then ['/'] else [])) =
        "/arm_command".toList := by
      split_ifs <;> decide
    have habsolute : ∀ ns, qualified ns "/arm_command".toList = "/arm_command".toList := by
      intro ns
      unfold qualified
      rw [if_pos (by decide)]
    rw [htopic, hmonitor, habsolute, habsolute]
    exact ⟨rfl, rfl⟩
  · refine ⟨fun hagree => ?_, fun hall => absurd hall h⟩
    push Not at h
    obtain ⟨hhead, hlast⟩ := robotNamespace_of_ne h
    have habsolute : ∀ ns s, qualified ns (robotNamespace r ++ s) = robotNamespace r ++ s := by
      intro ns s
      unfold qualified
      rw [if_pos (by rw [List.head?_append, hhead]; rfl)]
    have heq := hagree.1
    rw [getNamespacedTopic_armCommand hlast, habsolute] at heq
    unfold systemMonitorArmCommandTopic at heq
    rw [habsolute] at heq
    exact absurd (List.append_cancel_left heq) (by decide)

/-- In the namespace `r` the monitor listens on `/rarm_command`. -/
theorem monitor_misses_armCommand :
    qualified ['/'] (systemMonitorArmCommandTopic (robotNamespace "r".toList)) =
        "/rarm_command".toList ∧
      qualified "/r".toList
        (armedStateManagerArmCommandTopic (robotNamespace "r".toList) "arm_command".toList) =
        "/r/arm_command".toList ∧
      qualified ['/'] (systemMonitorArmCommandTopic (robotNamespace "r".toList)) ≠
        qualified "/r".toList
          (armedStateManagerArmCommandTopic (robotNamespace "r".toList) "arm_command".toList) := by
  decide

end BaseNode
