import Mathlib.Algebra.Field.Rat
import RobotFramework.TranslateUtility.Conversions

/-!
# Copying covariances

Five conversions copy the covariance vectors of a core message into fixed arrays that are not
initialized. Nothing on the way checks the lengths of the vectors: `IMUNode` takes them from its
parameters as they are.
-/

namespace TranslateUtility

variable {F : Type}

/-- A core message with covariances. -/
inductive CoreMessage (F : Type) where
  | imu (msg : Core.ImuMsg F)
  | magneticField (msg : Core.MagneticFieldMsg F)
  | accelWithCovariance (msg : Core.AccelWithCovarianceMsg F)
  | poseWithCovariance (msg : Core.PoseWithCovarianceMsg F)
  | odom (msg : Core.OdomMsg F)
  deriving Repr

namespace CoreMessage

/-- The covariance arrays of the ROS message that a core message is converted to. -/
def arrays [Zero F] [One F] (tf2 : Tf2 F) : CoreMessage F → List (Σ size, FixedBuffer F size)
  | .imu msg =>
      let ros := msg.convert tf2
      [⟨9, ros.orientationCovariance⟩, ⟨9, ros.angularVelocityCovariance⟩,
        ⟨9, ros.linearAccelerationCovariance⟩]
  | .magneticField msg =>
      let ros := msg.convert
      [⟨9, ros.magneticFieldCovariance⟩]
  | .accelWithCovariance msg =>
      let ros := msg.convert
      [⟨36, ros.accel.covariance⟩]
  | .poseWithCovariance msg =>
      let ros := msg.convert tf2
      [⟨36, ros.covariance⟩]
  | .odom msg =>
      let ros := msg.convert tf2
      [⟨36, ros.pose.covariance⟩, ⟨36, ros.twist.covariance⟩]

/-- Every array is written inside its bounds only, and all of it. -/
def CopiesInBounds [Zero F] [One F] (tf2 : Tf2 F) (m : CoreMessage F) : Prop :=
  ∀ a ∈ m.arrays tf2, a.2.InBounds ∧ a.2.Assigned

instance [Zero F] [One F] (tf2 : Tf2 F) (m : CoreMessage F) : Decidable (m.CopiesInBounds tf2) :=
  inferInstanceAs (Decidable (∀ a ∈ m.arrays tf2, _ ∧ _))

/-- The conversion returns before it copies anything. -/
def ReturnsEarly : CoreMessage F → Prop
  | .imu msg => msg.timeStamp < 0
  | .magneticField msg => msg.timeStamp < 0
  | .accelWithCovariance _ => False
  | .poseWithCovariance _ => False
  | .odom _ => False

/-- The covariance vectors, each with the size of the array it is copied to. -/
def vectors : CoreMessage F → List (Nat × List F)
  | .imu msg =>
      [(9, msg.orientationCovariance.covariance), (9, msg.angularVelocityCovariance.covariance),
        (9, msg.linearAccelerationCovariance.covariance)]
  | .magneticField msg => [(9, msg.magneticFieldCovariance.covariance)]
  | .accelWithCovariance msg => [(36, msg.covariance.covariance)]
  | .poseWithCovariance msg => [(36, msg.covariance.covariance)]
  | .odom msg => [(36, msg.pose.covariance.covariance)]

end CoreMessage

/-! ## One copy -/

theorem copy_inBounds_iff {size : Nat} (source : List F) :
    (FixedBuffer.copy size source).InBounds ∧ (FixedBuffer.copy size source).Assigned ↔
      source.length = size := by
  rw [FixedBuffer.inBounds_copy, FixedBuffer.assigned_copy]
  omega

theorem zeros_inBounds [Zero F] (size : Nat) :
    (Core.zeros F size).InBounds ∧ (Core.zeros F size).Assigned :=
  ⟨FixedBuffer.inBounds_ofVector _, FixedBuffer.assigned_ofVector _⟩

/-! ## The conversions -/

variable [Zero F] [One F] (tf2 : Tf2 F)

theorem imu_copiesInBounds_iff (msg : Core.ImuMsg F) :
    (CoreMessage.imu msg).CopiesInBounds tf2 ↔ msg.timeStamp < 0 ∨
      msg.orientationCovariance.covariance.length = 9 ∧
      msg.angularVelocityCovariance.covariance.length = 9 ∧
      msg.linearAccelerationCovariance.covariance.length = 9 := by
  unfold CoreMessage.CopiesInBounds CoreMessage.arrays Core.ImuMsg.convert
  by_cases htime : msg.timeStamp < 0
  · simp [htime, zeros_inBounds]
  · simp [htime, Core.convertCovariance3D, copy_inBounds_iff]

theorem magneticField_copiesInBounds_iff (msg : Core.MagneticFieldMsg F) :
    (CoreMessage.magneticField msg).CopiesInBounds tf2 ↔ msg.timeStamp < 0 ∨
      msg.magneticFieldCovariance.covariance.length = 9 := by
  unfold CoreMessage.CopiesInBounds CoreMessage.arrays Core.MagneticFieldMsg.convert
  by_cases htime : msg.timeStamp < 0
  · simp [htime, zeros_inBounds]
  · simp [htime, Core.convertCovariance3D, copy_inBounds_iff]

omit [Zero F] [One F] in
theorem poseWithCovariance_inBounds_iff (msg : Core.PoseWithCovarianceMsg F) :
    (msg.convert tf2).covariance.InBounds ∧ (msg.convert tf2).covariance.Assigned ↔
      msg.covariance.covariance.length = 36 := copy_inBounds_iff _

/-- **Covariance copies.** The copies stay inside the arrays and fill them exactly if nothing is copied
or every vector has the size of its array. -/
theorem copiesInBounds_iff (m : CoreMessage F) :
    m.CopiesInBounds tf2 ↔ m.ReturnsEarly ∨ ∀ v ∈ m.vectors, v.2.length = v.1 := by
  cases m with
  | imu msg =>
    rw [imu_copiesInBounds_iff]
    simp [CoreMessage.ReturnsEarly, CoreMessage.vectors]
  | magneticField msg =>
    rw [magneticField_copiesInBounds_iff]
    simp [CoreMessage.ReturnsEarly, CoreMessage.vectors]
  | accelWithCovariance msg =>
    have hcopy : msg.convert.accel.covariance.InBounds ∧ msg.convert.accel.covariance.Assigned ↔
        msg.covariance.covariance.length = 36 := copy_inBounds_iff _
    simpa [CoreMessage.CopiesInBounds, CoreMessage.arrays, CoreMessage.ReturnsEarly,
      CoreMessage.vectors] using hcopy
  | poseWithCovariance msg =>
    have hcopy := poseWithCovariance_inBounds_iff tf2 msg
    simpa [CoreMessage.CopiesInBounds, CoreMessage.arrays, CoreMessage.ReturnsEarly,
      CoreMessage.vectors] using hcopy
  | odom msg =>
    have hcopy := poseWithCovariance_inBounds_iff tf2 msg.pose
    have hzeros : (msg.convert tf2).twist.covariance.InBounds ∧
        (msg.convert tf2).twist.covariance.Assigned := zeros_inBounds 36
    have hpose : (msg.convert tf2).pose = msg.pose.convert tf2 := rfl
    simpa [CoreMessage.CopiesInBounds, CoreMessage.arrays, CoreMessage.ReturnsEarly,
      CoreMessage.vectors, hzeros, hpose] using hcopy

/-! ## A configured covariance -/

/-- An IMU message with the given covariance of the linear acceleration. -/
def imuWithCovariance (linearAccelerationCovariance : List Rat) : Core.ImuMsg Rat where
  timeStamp := 1
  orientation := ⟨0, 0, 0⟩
  orientationCovariance := ⟨List.replicate 9 0⟩
  angularVelocity := ⟨0, 0, 0⟩
  angularVelocityCovariance := ⟨List.replicate 9 0⟩
  linearAcceleration := ⟨0, 0, 0⟩
  linearAccelerationCovariance := ⟨linearAccelerationCovariance⟩

/-- A `tf2` that knows no rotation but the identity. -/
def identityTf2 : Tf2 Rat where
  getRPY _ := ⟨0, 0, 0⟩
  setRPY _ := ⟨0, 0, 0, 1⟩

/-- Twelve configured elements are written beyond the end of the array, and three leave the rest of it
unassigned. -/
theorem imuWithCovariance_not_inBounds :
    ((imuWithCovariance (List.replicate 12 1)).convert identityTf2).linearAccelerationCovariance.outside =
        [9, 10, 11] ∧
      ((imuWithCovariance [1, 1, 1]).convert identityTf2).linearAccelerationCovariance.elements[3] =
        none ∧
      ¬ (CoreMessage.imu (imuWithCovariance (List.replicate 12 1))).CopiesInBounds identityTf2 ∧
      ¬ (CoreMessage.imu (imuWithCovariance [1, 1, 1])).CopiesInBounds identityTf2 := by
  decide +kernel

end TranslateUtility
