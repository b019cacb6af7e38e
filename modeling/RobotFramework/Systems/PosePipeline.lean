import RobotFramework.PublishSubscribe
import RobotFramework.TranslateUtility.RoundTrip
import RobotFramework.TranslateUtility.Stamps

/-!
# The pose pipeline

`IMUNode` publishes what its sensor measures, `InertialSensorFuserNode` fuses it, and `LocalPoseFuserNode` makes
the pose of the robot from that. What their processes give is not in the repository; here it comes from outside.
Whatever the processes give, in whatever order and with whatever delay or loss the messages arrive, no node throws
on a message, every message is in the frame of the sensor, and no stage publishes more than the one before
(`pose_pipeline_safe`).
-/

namespace Systems

open History PublishSubscribe
open TranslateUtility

/-! ## The code -/

/-- The nodes of the pose system. -/
inductive PoseNode where
  | imu
  | inertialSensorFuser
  | localPoseFuser
  deriving DecidableEq, Repr

/-- The topics in the configurations of the nodes; the input topic of a node is the output topic of the one
before. -/
structure PoseTopics where
  imu : String
  accel : String
  magnetic : String
  fusedImu : String
  localPose : String
  localPoseAngularAccel : String
  deriving DecidableEq, Repr

/-- `geometry_msgs::msg::AccelStamped`. -/
structure AccelStamped (F : Type) where
  header : Ros.Header
  accel : Ros.Accel F

/-- A message of the pose system. -/
inductive PoseMessage (F : Type) where
  | imu (msg : Ros.Imu F (FixedBuffer F))
  | accel (msg : AccelStamped F)
  | magneticField (msg : Ros.MagneticField F (FixedBuffer F))
  | odometry (msg : Ros.Odometry F (FixedBuffer F))
  | accelWithCovariance (msg : Ros.AccelWithCovarianceStamped F (FixedBuffer F))

/-- The header of a message with the frame it is published in. -/
def inFrame (frameId : String) (header : Ros.Header) : Ros.Header := { header with frameId := frameId }

/-- The arrays of a message, if all of their elements are assigned. -/
def receivedImu {F : Type} (msg : Ros.Imu F (FixedBuffer F)) : Option (Ros.Imu F (Vector F)) := do
  let orientationCovariance ← msg.orientationCovariance.toVector?
  let angularVelocityCovariance ← msg.angularVelocityCovariance.toVector?
  let linearAccelerationCovariance ← msg.linearAccelerationCovariance.toVector?
  return {
    header := msg.header
    orientation := msg.orientation
    orientationCovariance := orientationCovariance
    angularVelocity := msg.angularVelocity
    angularVelocityCovariance := angularVelocityCovariance
    linearAcceleration := msg.linearAcceleration
    linearAccelerationCovariance := linearAccelerationCovariance }

/-- What comes from outside at a step of a node: `get_imu_data` and `get_magnetic_data`. -/
def PoseNode.Event (F : Type) : PoseNode → Type
  | .imu => Option (Core.ImuMsg F) × Option (Core.MagneticFieldMsg F)
  | .inertialSensorFuser => Empty
  | .localPoseFuser => Empty

/-- What comes from outside for a message: `get_machine_inertial_data` and `get_local_pose`. -/
def PoseNode.Answer (F : Type) : PoseNode → Type
  | .imu => Empty
  | .inertialSensorFuser => Option (Core.ImuMsg F)
  | .localPoseFuser => Option (Core.OdomMsg F × Core.AccelWithCovarianceMsg F)

section Nodes

variable {F : Type} [Zero F] [One F] (tf2 : Tf2 F) (topics : PoseTopics)

/-- `IMUNode::runLoop2`. -/
def imuRunLoop2 (imuFrame : String) (imuData : Option (Core.ImuMsg F))
    (magneticData : Option (Core.MagneticFieldMsg F)) : List (String × PoseMessage F) :=
  (match imuData with
    | none => []
    | some data =>
      let imu := data.convert tf2
      let header := inFrame imuFrame imu.header
      [(topics.imu, .imu { imu with header := header }),
        (topics.accel, .accel { header := header, accel := ⟨imu.linearAcceleration, Core.zeroVector3⟩ })]) ++
  match magneticData with
    | none => []
    | some data =>
      let magnetic := data.convert
      [(topics.magnetic, .magneticField { magnetic with header := inFrame imuFrame magnetic.header })]

/-- What `InertialSensorFuserNode::imuCallback` publishes for a message in a frame. -/
def fusedMessages (frameId : String) : Option (Core.ImuMsg F) → List (String × PoseMessage F)
  | none => []
  | some data =>
    let fused := data.convert tf2
    [(topics.fusedImu, .imu { fused with header := inFrame frameId fused.header })]

/-- `InertialSensorFuserNode::imuCallback`; without a result it throws. -/
def imuCallback (msg : Ros.Imu F (FixedBuffer F)) (machineInertialData : Option (Core.ImuMsg F)) :
    Option (List (String × PoseMessage F)) := do
  let localMsg ← receivedImu msg
  let _ ← localMsg.convert tf2
  return fusedMessages tf2 topics localMsg.header.frameId machineInertialData

/-- What `LocalPoseFuserNode::machineInertialCallback` publishes for a message in a frame. -/
def localPoseMessages (frameId : String) :
    Option (Core.OdomMsg F × Core.AccelWithCovarianceMsg F) → List (String × PoseMessage F)
  | none => []
  | some (poseData, angularAccelData) =>
    let pose := poseData.convert tf2
    let angularAccel := angularAccelData.convert
    [(topics.localPose, .odometry { pose with header := inFrame frameId pose.header }),
      (topics.localPoseAngularAccel, .accelWithCovariance
        { angularAccel with header := inFrame frameId angularAccel.header })]

/-- `LocalPoseFuserNode::machineInertialCallback`; without a result it throws. -/
def machineInertialCallback (msg : Ros.Imu F (FixedBuffer F))
    (localPose : Option (Core.OdomMsg F × Core.AccelWithCovarianceMsg F)) :
    Option (List (String × PoseMessage F)) := do
  let localMsg ← receivedImu msg
  let _ ← localMsg.convert tf2
  return localPoseMessages tf2 topics localMsg.header.frameId localPose

/-- The callback of a node for a message of its input topic. -/
def PoseNode.callback : (i : PoseNode) → String → PoseMessage F → i.Answer F →
    Option (List (String × PoseMessage F))
  | .inertialSensorFuser, t, .imu msg, answer =>
    if t = topics.imu then imuCallback tf2 topics msg answer else some []
  | .localPoseFuser, t, .imu msg, answer =>
    if t = topics.fusedImu then machineInertialCallback tf2 topics msg answer else some []
  | _, _, _, _ => some []

/-- A callback in a node that runs; one that throws ends the node. -/
def whileRunning (running : Bool) (result : Option (List (String × PoseMessage F))) :
    Bool × List (String × PoseMessage F) :=
  match running, result with
  | true, some messages => (true, messages)
  | _, _ => (false, [])

/-- The pose system; of a node it is kept whether it runs. -/
def poseSystem (imuFrame : String) :
    System (fun _ : PoseNode => Bool) (PoseNode.Event F) (PoseNode.Answer F) String (PoseMessage F) where
  subscribes
    | .imu, _ => false
    | .inertialSensorFuser, t => t = topics.imu
    | .localPoseFuser, t => t = topics.fusedImu
  act
    | .imu, running, (imuData, magneticData) =>
      whileRunning running (some (imuRunLoop2 tf2 topics imuFrame imuData magneticData))
  receive i running t m answer := whileRunning running (i.callback tf2 topics t m answer)

/-- What has happened since the nodes were initialized. -/
def poseRun (imuFrame : String) (actions : List (Action (PoseNode.Event F) (PoseNode.Answer F) String)) :
    World (fun _ : PoseNode => Bool) String (PoseMessage F) :=
  run (step (poseSystem tf2 topics imuFrame)) (.initial fun _ => true) actions

end Nodes

/-! ## Messages that a node takes -/

variable {F : Type}

def PoseMessage.frameId : PoseMessage F → String
  | .imu msg => msg.header.frameId
  | .accel msg => msg.header.frameId
  | .magneticField msg => msg.header.frameId
  | .odometry msg => msg.header.frameId
  | .accelWithCovariance msg => msg.header.frameId

/-- A message that can be converted: its stamp is in range, and its arrays are complete. -/
structure ReadableImu (msg : Ros.Imu F (FixedBuffer F)) : Prop where
  stamp : 0 ≤ msg.header.stamp.sec ∧ msg.header.stamp.sec < 2 ^ 31
  orientation : msg.orientationCovariance.Assigned
  angularVelocity : msg.angularVelocityCovariance.Assigned
  linearAcceleration : msg.linearAccelerationCovariance.Assigned

def PoseMessage.Readable : PoseMessage F → Prop
  | .imu msg => ReadableImu msg
  | _ => True

theorem stamp_range {t : Rat} (h : 0 ≤ t) (ht : t < 2 ^ 31) :
    0 ≤ (Core.stamp t).sec ∧ (Core.stamp t).sec < 2 ^ 31 := by
  have hnanoseconds : truncate (t * 1000000000) = ⌊t * 1000000000⌋ := truncate_of_nonneg (by linarith)
  have hlow : 0 ≤ truncate (t * 1000000000) := by
    rw [hnanoseconds]
    exact Int.floor_nonneg.mpr (by linarith)
  have hhigh : truncate (t * 1000000000) < 2 ^ 31 * 1000000000 := by
    rw [hnanoseconds, Int.floor_lt]
    push_cast
    linarith
  show 0 ≤ truncate (t * 1000000000) / 1000000000 ∧ truncate (t * 1000000000) / 1000000000 < 2 ^ 31
  omega

theorem convert_of_readable (tf2 : Tf2 F) {msg : Ros.Imu F (FixedBuffer F)} (h : ReadableImu msg) :
    ∃ localMsg core, receivedImu msg = some localMsg ∧ localMsg.header = msg.header ∧
      localMsg.convert tf2 = some core := by
  obtain ⟨orientation, horientation⟩ := FixedBuffer.toVector?_of_assigned h.orientation
  obtain ⟨angularVelocity, hangular⟩ := FixedBuffer.toVector?_of_assigned h.angularVelocity
  obtain ⟨linearAcceleration, hlinear⟩ := FixedBuffer.toVector?_of_assigned h.linearAcceleration
  obtain ⟨t, hseconds, -⟩ := seconds_of_nonneg h.stamp.1
  obtain ⟨localMsg, hreceived, hheader⟩ :
      ∃ localMsg, receivedImu msg = some localMsg ∧ localMsg.header = msg.header := by
    unfold receivedImu
    rw [horientation, hangular, hlinear]
    exact ⟨_, rfl, rfl⟩
  obtain ⟨core, hcore⟩ : ∃ core, localMsg.convert tf2 = some core := by
    unfold Ros.Imu.convert
    rw [hheader, hseconds]
    exact ⟨_, rfl⟩
  exact ⟨localMsg, core, hreceived, hheader, hcore⟩

variable [Zero F] [One F] (tf2 : Tf2 F)

/-- What a process gives is published so that the next node can take it, even with a negative time. -/
theorem readable_convert {data : Core.ImuMsg F} (h : (CoreMessage.imu data).CopiesInBounds tf2)
    (htime : data.timeStamp < 2 ^ 31) (frameId : String) :
    ReadableImu { data.convert tf2 with header := inFrame frameId (data.convert tf2).header } := by
  have harrays : ∀ a ∈ (CoreMessage.imu data).arrays tf2, a.2.Assigned := fun a ha => (h a ha).2
  refine ⟨?_, harrays ⟨9, _⟩ (by simp [CoreMessage.arrays]), harrays ⟨9, _⟩ (by simp [CoreMessage.arrays]),
    harrays ⟨9, _⟩ (by simp [CoreMessage.arrays])⟩
  show 0 ≤ (data.convert tf2).header.stamp.sec ∧ (data.convert tf2).header.stamp.sec < 2 ^ 31
  unfold Core.ImuMsg.convert
  split_ifs with hnegative
  · exact stamp_range le_rfl (by norm_num)
  · exact stamp_range (not_lt.mp hnegative) htime

/-! ## What a node publishes -/

variable (topics : PoseTopics)

/-- The topics are different from each other. -/
def PoseTopics.Distinct (topics : PoseTopics) : Prop :=
  [topics.imu, topics.accel, topics.magnetic, topics.fusedImu, topics.localPose,
    topics.localPoseAngularAccel].Nodup

instance (topics : PoseTopics) : Decidable topics.Distinct :=
  inferInstanceAs (Decidable (List.Nodup _))

theorem imuCallback_of_readable {msg : Ros.Imu F (FixedBuffer F)} (h : ReadableImu msg)
    (answer : Option (Core.ImuMsg F)) :
    imuCallback tf2 topics msg answer = some (fusedMessages tf2 topics msg.header.frameId answer) := by
  obtain ⟨localMsg, core, hreceived, hheader, hcore⟩ := convert_of_readable tf2 h
  unfold imuCallback
  rw [hreceived, Option.bind_eq_bind, Option.bind_some, hcore, ← hheader]
  rfl

omit [One F] in
theorem machineInertialCallback_of_readable {msg : Ros.Imu F (FixedBuffer F)} (h : ReadableImu msg)
    (answer : Option (Core.OdomMsg F × Core.AccelWithCovarianceMsg F)) :
    machineInertialCallback tf2 topics msg answer =
      some (localPoseMessages tf2 topics msg.header.frameId answer) := by
  obtain ⟨localMsg, core, hreceived, hheader, hcore⟩ := convert_of_readable tf2 h
  unfold machineInertialCallback
  rw [hreceived, Option.bind_eq_bind, Option.bind_some, hcore, ← hheader]
  rfl

/-- What a node may publish for a message on a topic: nothing, or what one of the two callbacks publishes in
some frame. -/
def MayPublish (i : PoseNode) (t : String) (messages : List (String × PoseMessage F)) : Prop :=
  messages = [] ∨
    (∃ frameId data, i = .inertialSensorFuser ∧ t = topics.imu ∧
      messages = fusedMessages tf2 topics frameId data) ∨
    ∃ frameId data, i = .localPoseFuser ∧ t = topics.fusedImu ∧
      messages = localPoseMessages tf2 topics frameId data

theorem callback_messages {i : PoseNode} {t : String} {m : PoseMessage F} {answer : i.Answer F}
    {messages : List (String × PoseMessage F)} (h : i.callback tf2 topics t m answer = some messages) :
    MayPublish tf2 topics i t messages := by
  cases i with
  | imu => exact answer.elim
  | inertialSensorFuser =>
    cases m with
    | imu msg =>
      dsimp only [PoseNode.callback] at h
      split_ifs at h with ht
      · unfold imuCallback at h
        rw [Option.bind_eq_bind, Option.bind_eq_some_iff] at h
        obtain ⟨localMsg, -, h⟩ := h
        rw [Option.bind_eq_bind, Option.bind_eq_some_iff] at h
        obtain ⟨core, -, hmessages⟩ := h
        exact Or.inr (Or.inl ⟨_, answer, rfl, ht, (Option.some.inj hmessages).symm⟩)
      · exact Or.inl (Option.some.inj h).symm
    | accel | magneticField | odometry | accelWithCovariance => exact Or.inl (Option.some.inj h).symm
  | localPoseFuser =>
    cases m with
    | imu msg =>
      dsimp only [PoseNode.callback] at h
      split_ifs at h with ht
      · unfold machineInertialCallback at h
        rw [Option.bind_eq_bind, Option.bind_eq_some_iff] at h
        obtain ⟨localMsg, -, h⟩ := h
        rw [Option.bind_eq_bind, Option.bind_eq_some_iff] at h
        obtain ⟨core, -, hmessages⟩ := h
        exact Or.inr (Or.inr ⟨_, answer, rfl, ht, (Option.some.inj hmessages).symm⟩)
      · exact Or.inl (Option.some.inj h).symm
    | accel | magneticField | odometry | accelWithCovariance => exact Or.inl (Option.some.inj h).symm

theorem receive_messages (imuFrame : String) (i : PoseNode) (running : Bool) (t : String) (m : PoseMessage F)
    (answer : i.Answer F) :
    MayPublish tf2 topics i t ((poseSystem tf2 topics imuFrame).receive i running t m answer).2 := by
  show MayPublish tf2 topics i t (whileRunning running (i.callback tf2 topics t m answer)).2
  cases running with
  | false => exact Or.inl rfl
  | true =>
    cases hcallback : i.callback tf2 topics t m answer with
    | none => exact Or.inl rfl
    | some messages => exact callback_messages tf2 topics hcallback

theorem act_messages (imuFrame : String) (i : PoseNode) (running : Bool) (e : i.Event F) :
    ((poseSystem tf2 topics imuFrame).act i running e).2 = [] ∨
      ∃ imuData magneticData, ((poseSystem tf2 topics imuFrame).act i running e).2 =
        imuRunLoop2 tf2 topics imuFrame imuData magneticData := by
  cases i with
  | imu =>
    cases running with
    | false => exact Or.inl rfl
    | true => exact Or.inr ⟨e.1, e.2, rfl⟩
  | inertialSensorFuser | localPoseFuser => exact e.elim

/-- An acceleration is published with the header and the acceleration of its IMU message. -/
def AccelOf : PoseMessage F → PoseMessage F → Prop
  | .imu imu, .accel accel => accel.header = imu.header ∧ accel.accel.linear = imu.linearAcceleration
  | _, _ => False

theorem paired_of {imuFrame t u : String} {R : PoseMessage F → PoseMessage F → Prop}
    (himu : ∀ imuData magneticData,
      List.Forall₂ R (onTopic t (imuRunLoop2 tf2 topics imuFrame imuData magneticData))
        (onTopic u (imuRunLoop2 tf2 topics imuFrame imuData magneticData)))
    (hfused : ∀ frameId data, List.Forall₂ R (onTopic t (fusedMessages tf2 topics frameId data))
      (onTopic u (fusedMessages tf2 topics frameId data)))
    (hlocalPose : ∀ frameId data, List.Forall₂ R (onTopic t (localPoseMessages tf2 topics frameId data))
      (onTopic u (localPoseMessages tf2 topics frameId data))) :
    Paired (poseSystem tf2 topics imuFrame) t u R := by
  constructor
  · intro i running e
    rcases act_messages tf2 topics imuFrame i running e with h | ⟨imuData, magneticData, h⟩
    · rw [h]
      exact .nil
    · rw [h]
      exact himu imuData magneticData
  · intro i running v m answer
    rcases receive_messages tf2 topics imuFrame i running v m answer with h | ⟨frameId, data, -, -, h⟩ |
      ⟨frameId, data, -, -, h⟩
    · rw [h]
      exact .nil
    · rw [h]
      exact hfused frameId data
    · rw [h]
      exact hlocalPose frameId data

theorem answers_of {imuFrame : String} {i : PoseNode} {t u : String}
    (himu : ∀ imuData magneticData,
      onTopic u (imuRunLoop2 tf2 topics imuFrame imuData magneticData) = [])
    (hother : ∀ j v messages, MayPublish tf2 topics j v messages → ¬ (i = j ∧ t = v) → onTopic u messages = [])
    (honce : ∀ j v messages, MayPublish tf2 topics j v messages → (onTopic u messages).length ≤ 1) :
    Answers (poseSystem tf2 topics imuFrame) i t u where
  act j running e := by
    rcases act_messages tf2 topics imuFrame j running e with h | ⟨imuData, magneticData, h⟩
    · rw [h]
      rfl
    · rw [h]
      exact himu imuData magneticData
  other j running v m answer h := hother j v _ (receive_messages tf2 topics imuFrame j running v m answer) h
  once j running v m answer := honce j v _ (receive_messages tf2 topics imuFrame j running v m answer)

section Distinct

variable {topics} (htopics : topics.Distinct)
include htopics

theorem imu_paired (imuFrame : String) : Paired (poseSystem tf2 topics imuFrame) topics.imu topics.accel AccelOf := by
  simp only [PoseTopics.Distinct, List.nodup_cons, List.mem_cons, List.not_mem_nil, or_false, not_or] at htopics
  apply paired_of
  · intro imuData magneticData
    cases imuData <;> cases magneticData <;> simp [imuRunLoop2, onTopic, AccelOf, htopics, eq_comm]
  · intro frameId data
    cases data <;> simp [fusedMessages, onTopic, htopics, eq_comm]
  · intro frameId data
    cases data <;> simp [localPoseMessages, onTopic, htopics, eq_comm]

theorem localPose_paired (imuFrame : String) :
    Paired (poseSystem tf2 topics imuFrame) topics.localPose topics.localPoseAngularAccel
      fun _ _ => True := by
  simp only [PoseTopics.Distinct, List.nodup_cons, List.mem_cons, List.not_mem_nil, or_false, not_or] at htopics
  apply paired_of
  · intro imuData magneticData
    cases imuData <;> cases magneticData <;> simp [imuRunLoop2, onTopic, htopics]
  · intro frameId data
    cases data <;> simp [fusedMessages, onTopic, htopics]
  · intro frameId data
    cases data <;> simp [localPoseMessages, onTopic, htopics, eq_comm]

theorem fused_answers (imuFrame : String) :
    Answers (poseSystem tf2 topics imuFrame) .inertialSensorFuser topics.imu topics.fusedImu := by
  simp only [PoseTopics.Distinct, List.nodup_cons, List.mem_cons, List.not_mem_nil, or_false, not_or] at htopics
  apply answers_of
  · intro imuData magneticData
    cases imuData <;> cases magneticData <;> simp [imuRunLoop2, onTopic, htopics]
  · rintro j v messages (rfl | ⟨frameId, data, hj, hv, -⟩ | ⟨frameId, data, -, -, rfl⟩) hother
    · rfl
    · exact absurd ⟨hj.symm, hv.symm⟩ hother
    · cases data <;> simp [localPoseMessages, onTopic, htopics, eq_comm]
  · rintro j v messages (rfl | ⟨frameId, data, -, -, rfl⟩ | ⟨frameId, data, -, -, rfl⟩)
    · exact Nat.zero_le 1
    · cases data <;> simp [fusedMessages, onTopic]
    · cases data <;> simp [localPoseMessages, onTopic, htopics, eq_comm]

theorem localPose_answers (imuFrame : String) :
    Answers (poseSystem tf2 topics imuFrame) .localPoseFuser topics.fusedImu topics.localPose := by
  simp only [PoseTopics.Distinct, List.nodup_cons, List.mem_cons, List.not_mem_nil, or_false, not_or] at htopics
  apply answers_of
  · intro imuData magneticData
    cases imuData <;> cases magneticData <;> simp [imuRunLoop2, onTopic, htopics]
  · rintro j v messages (rfl | ⟨frameId, data, -, -, rfl⟩ | ⟨frameId, data, hj, hv, -⟩) hother
    · rfl
    · cases data <;> simp [fusedMessages, onTopic, htopics]
    · exact absurd ⟨hj.symm, hv.symm⟩ hother
  · rintro j v messages (rfl | ⟨frameId, data, -, -, rfl⟩ | ⟨frameId, data, -, -, rfl⟩)
    · exact Nat.zero_le 1
    · cases data <;> simp [fusedMessages, onTopic, htopics]
    · cases data <;> simp [localPoseMessages, onTopic, htopics, eq_comm]

end Distinct

/-! ## Every message -/

/-- A process gives covariances of the sizes of the arrays, and a time that fits in a stamp. -/
def FitsImu (data : Core.ImuMsg F) : Prop :=
  (CoreMessage.imu data).CopiesInBounds tf2 ∧ data.timeStamp < 2 ^ 31

/-- What the process of the IMU node gives fits. -/
def PoseNode.EventFits : (i : PoseNode) → i.Event F → Prop
  | .imu, (imuData, magneticData) =>
    (∀ data ∈ imuData, FitsImu tf2 data) ∧
      ∀ data ∈ magneticData, (CoreMessage.magneticField data).CopiesInBounds tf2

/-- What the process of a fuser gives fits. -/
def PoseNode.AnswerFits : (i : PoseNode) → i.Answer F → Prop
  | .inertialSensorFuser, (machineInertialData : Option (Core.ImuMsg F)) =>
    ∀ data ∈ machineInertialData, FitsImu tf2 data
  | .localPoseFuser, (localPose : Option (Core.OdomMsg F × Core.AccelWithCovarianceMsg F)) => ∀ data ∈ localPose,
      (CoreMessage.odom data.1).CopiesInBounds tf2 ∧ (CoreMessage.accelWithCovariance data.2).CopiesInBounds tf2

/-- A message in a frame that the next node can take. -/
def PoseMessage.Fine (frameId : String) (m : PoseMessage F) : Prop := m.frameId = frameId ∧ m.Readable

theorem imuRunLoop2_fine (imuFrame : String) {imuData : Option (Core.ImuMsg F)}
    (himu : ∀ data ∈ imuData, FitsImu tf2 data) (magneticData : Option (Core.MagneticFieldMsg F)) :
    ∀ t m, (t, m) ∈ imuRunLoop2 tf2 topics imuFrame imuData magneticData → m.Fine imuFrame := by
  intro t m hm
  unfold imuRunLoop2 at hm
  rcases List.mem_append.mp hm with hm | hm
  · cases imuData with
    | none => exact absurd hm List.not_mem_nil
    | some data =>
      obtain ⟨hfits, htime⟩ := himu data rfl
      simp only [List.mem_cons, Prod.mk.injEq, List.not_mem_nil, or_false] at hm
      rcases hm with ⟨-, rfl⟩ | ⟨-, rfl⟩
      · exact ⟨rfl, readable_convert tf2 hfits htime imuFrame⟩
      · exact ⟨rfl, trivial⟩
  · cases magneticData with
    | none => exact absurd hm List.not_mem_nil
    | some data =>
      obtain ⟨-, rfl⟩ := Prod.mk.inj (List.mem_singleton.mp hm)
      exact ⟨rfl, trivial⟩

theorem fusedMessages_fine (frameId : String) {answer : Option (Core.ImuMsg F)}
    (hanswer : ∀ data ∈ answer, FitsImu tf2 data) :
    ∀ t m, (t, m) ∈ fusedMessages tf2 topics frameId answer → m.Fine frameId := by
  intro t m hm
  cases answer with
  | none => exact absurd hm List.not_mem_nil
  | some data =>
    obtain ⟨hfits, htime⟩ := hanswer data rfl
    obtain ⟨-, rfl⟩ := Prod.mk.inj (List.mem_singleton.mp hm)
    exact ⟨rfl, readable_convert tf2 hfits htime frameId⟩

omit [One F] in
theorem localPoseMessages_fine (frameId : String) (answer : Option (Core.OdomMsg F × Core.AccelWithCovarianceMsg F)) :
    ∀ t m, (t, m) ∈ localPoseMessages tf2 topics frameId answer → m.Fine frameId := by
  intro t m hm
  cases answer with
  | none => exact absurd hm List.not_mem_nil
  | some data =>
    simp only [localPoseMessages, List.mem_cons, Prod.mk.injEq, List.not_mem_nil, or_false] at hm
    rcases hm with ⟨-, rfl⟩ | ⟨-, rfl⟩
    · exact ⟨rfl, trivial⟩
    · exact ⟨rfl, trivial⟩

theorem callback_fine {i : PoseNode} {imuFrame t : String} {m : PoseMessage F} {answer : i.Answer F}
    (hanswer : i.AnswerFits tf2 answer) (hm : m.Fine imuFrame) :
    ∃ messages, i.callback tf2 topics t m answer = some messages ∧
      ∀ u x, (u, x) ∈ messages → x.Fine imuFrame := by
  have hnone : ∀ u x, (u, x) ∈ ([] : List (String × PoseMessage F)) → x.Fine imuFrame :=
    fun u x hx => absurd hx List.not_mem_nil
  cases i with
  | imu => exact answer.elim
  | inertialSensorFuser =>
    cases m with
    | imu msg =>
      obtain ⟨rfl, hreadable⟩ := hm
      dsimp only [PoseNode.callback]
      split_ifs
      · exact ⟨_, imuCallback_of_readable tf2 topics hreadable answer, fusedMessages_fine tf2 topics _ hanswer⟩
      · exact ⟨[], rfl, hnone⟩
    | accel | magneticField | odometry | accelWithCovariance => exact ⟨[], rfl, hnone⟩
  | localPoseFuser =>
    cases m with
    | imu msg =>
      obtain ⟨rfl, hreadable⟩ := hm
      dsimp only [PoseNode.callback]
      split_ifs
      · exact ⟨_, machineInertialCallback_of_readable tf2 topics hreadable answer,
          localPoseMessages_fine tf2 topics _ answer⟩
      · exact ⟨[], rfl, hnone⟩
    | accel | magneticField | odometry | accelWithCovariance => exact ⟨[], rfl, hnone⟩

theorem pose_rule (imuFrame : String) :
    Rule (poseSystem tf2 topics imuFrame) (PoseNode.EventFits tf2) (PoseNode.AnswerFits tf2)
      (fun _ running => running = true) (fun _ m => m.Fine imuFrame) where
  act i running e he hrunning := by
    subst hrunning
    cases i with
    | imu => exact ⟨rfl, imuRunLoop2_fine tf2 topics imuFrame he.1 e.2⟩
    | inertialSensorFuser | localPoseFuser => exact e.elim
  receive i running t m answer hanswer hrunning hm := by
    subst hrunning
    obtain ⟨messages, hcallback, hmessages⟩ := callback_fine tf2 topics (t := t) hanswer hm
    show (whileRunning true (i.callback tf2 topics t m answer)).1 = true ∧
      ∀ u x, (u, x) ∈ (whileRunning true (i.callback tf2 topics t m answer)).2 → x.Fine imuFrame
    rw [hcallback]
    exact ⟨rfl, hmessages⟩

/-- **The pose pipeline is safe.** Whatever the processes of the nodes give, as long as it fits in the messages, and
however the messages are delayed, reordered or lost: no node ends by an exception; every message is in the frame
of the sensor; an acceleration goes out with every IMU message and an angular acceleration with every pose; and
there are no more fused messages than IMU messages, and no more poses than fused messages. -/
theorem pose_pipeline_safe (htopics : topics.Distinct) (imuFrame : String)
    (actions : List (Action (PoseNode.Event F) (PoseNode.Answer F) String))
    (hactions : ∀ a ∈ actions, a.Allowed (PoseNode.EventFits tf2) (PoseNode.AnswerFits tf2)) :
    let w := poseRun tf2 topics imuFrame actions
    (∀ i, w.nodes i = true) ∧
      (∀ t, ∀ m ∈ w.published t, m.frameId = imuFrame) ∧
      List.Forall₂ AccelOf (w.published topics.imu) (w.published topics.accel) ∧
      (w.published topics.fusedImu).length ≤ (w.published topics.imu).length ∧
      (w.published topics.localPose).length ≤ (w.published topics.fusedImu).length ∧
      (w.published topics.localPose).length = (w.published topics.localPoseAngularAccel).length := by
  have hholds := (pose_rule tf2 topics imuFrame).holds_run (fun _ => true) (fun _ => rfl) hactions
  refine ⟨hholds.nodes, fun t m hm => (hholds.published t m hm).1, ?_, ?_, ?_, ?_⟩
  · exact (imu_paired tf2 htopics imuFrame).run _ actions
  · exact (fused_answers tf2 htopics imuFrame).run _ actions
  · exact (localPose_answers tf2 htopics imuFrame).run _ actions
  · exact ((localPose_paired tf2 htopics imuFrame).run _ actions).length_eq

/-- The topics in the node registry. -/
def registryTopics : PoseTopics where
  imu := "imu1"
  accel := "accel1"
  magnetic := "magnetic1"
  fusedImu := "fused_imu"
  localPose := "local_pose"
  localPoseAngularAccel := "local_pose_angular_accel"

/-- A measurement goes through the fuser, and gives no pose. -/
def oneMeasurement : List (Action (PoseNode.Event Rat) (PoseNode.Answer Rat) String) :=
  let measured := imuWithCovariance (List.replicate 9 0)
  [.act .imu (some measured, none), .deliver .inertialSensorFuser "imu1" 0 (some measured),
    .deliver .localPoseFuser "fused_imu" 0 none]

theorem oneMeasurement_fits :
    ∀ a ∈ oneMeasurement, a.Allowed (PoseNode.EventFits identityTf2) (PoseNode.AnswerFits identityTf2) := by
  have hfits : FitsImu identityTf2 (imuWithCovariance (List.replicate 9 0)) :=
    ⟨(imu_copiesInBounds_iff identityTf2 _).mpr (Or.inr ⟨rfl, rfl, rfl⟩), by norm_num [imuWithCovariance]⟩
  have hmeasured : ∀ data ∈ some (imuWithCovariance (List.replicate 9 0)), FitsImu identityTf2 data := by
    intro data hdata
    rw [← Option.mem_some_iff.mp hdata]
    exact hfits
  intro a ha
  simp only [oneMeasurement, List.mem_cons, List.not_mem_nil, or_false] at ha
  rcases ha with rfl | rfl | rfl
  · exact ⟨hmeasured, fun data hdata => absurd hdata (Option.not_mem_none data)⟩
  · exact hmeasured
  · exact fun data hdata => absurd hdata (Option.not_mem_none data)

theorem oneMeasurement_safe :
    let w := poseRun identityTf2 registryTopics "base_link" oneMeasurement
    (∀ i, w.nodes i = true) ∧
      (∀ t, ∀ m ∈ w.published t, m.frameId = "base_link") ∧
      List.Forall₂ AccelOf (w.published "imu1") (w.published "accel1") ∧
      (w.published "fused_imu").length ≤ (w.published "imu1").length ∧
      (w.published "local_pose").length ≤ (w.published "fused_imu").length ∧
      (w.published "local_pose").length = (w.published "local_pose_angular_accel").length :=
  pose_pipeline_safe identityTf2 registryTopics (by decide) "base_link" oneMeasurement oneMeasurement_fits

-- The fused message goes out.
example : ((poseRun identityTf2 registryTopics "base_link" oneMeasurement).published "fused_imu").length = 1 := by
  decide +kernel

end Systems
