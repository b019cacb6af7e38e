import Mathlib.Tactic.Positivity
import RobotFramework.TranslateUtility.CovarianceBounds

/-!
# From ROS to the core and back

A message that goes through its core type and comes back carries the same payload: vectors, points,
covariances, axes and buttons, and hypotheses. The covariance of the twist of an odometry message is not
among them: neither direction converts it, and the message that comes back has zeros there.
Orientations, headers and the id of a detection are no payload.
-/

namespace TranslateUtility

variable {F : Type}

/-- A ROS message that is converted in both directions. -/
inductive RosMessage (F : Type) (A : Nat → Type) where
  | accelWithCovarianceStamped (msg : Ros.AccelWithCovarianceStamped F A)
  | poseWithCovariance (msg : Ros.PoseWithCovariance F A)
  | odometry (msg : Ros.Odometry F A)
  | imu (msg : Ros.Imu F A)
  | magneticField (msg : Ros.MagneticField F A)
  | joy (msg : Ros.Joy F)
  | boundingBox3D (msg : Ros.BoundingBox3D F)
  | objectHypothesisWithPose (msg : Ros.ObjectHypothesisWithPose F A)
  | detection3D (msg : Ros.Detection3D F A)

/-- The stamp of a message that has one. -/
def RosMessage.stamp {A : Nat → Type} : RosMessage F A → Option Ros.Time
  | .accelWithCovarianceStamped msg => some msg.header.stamp
  | .poseWithCovariance _ => none
  | .odometry msg => some msg.header.stamp
  | .imu msg => some msg.header.stamp
  | .magneticField msg => some msg.header.stamp
  | .joy msg => some msg.header.stamp
  | .boundingBox3D _ => none
  | .objectHypothesisWithPose _ => none
  | .detection3D msg => some msg.header.stamp

/-- The message that comes back, unless the stamp is rejected. -/
def RosMessage.roundTrip [Zero F] [One F] (tf2 : Tf2 F) :
    RosMessage F (Vector F) → Option (RosMessage F (FixedBuffer F))
  | .accelWithCovarianceStamped msg =>
      msg.convert.map fun core => .accelWithCovarianceStamped core.convert
  | .poseWithCovariance msg => some (.poseWithCovariance ((msg.convert tf2).convert tf2))
  | .odometry msg => (msg.convert tf2).map fun core => .odometry (core.convert tf2)
  | .imu msg => (msg.convert tf2).map fun core => .imu (core.convert tf2)
  | .magneticField msg => msg.convert.map fun core => .magneticField core.convert
  | .joy msg => msg.convert.map fun core => .joy core.convert
  | .boundingBox3D msg => some (.boundingBox3D ((msg.convert tf2).convert tf2))
  | .objectHypothesisWithPose msg =>
      some (.objectHypothesisWithPose ((msg.convert tf2).convert tf2))
  | .detection3D msg => (msg.convert tf2).map fun core => .detection3D (core.convert tf2)

/-! ## Payloads -/

namespace Ros

def SameArray {size : Nat} (v : Vector F size) (b : FixedBuffer F size) : Prop := b = .ofVector v

def PoseWithCovariance.SamePayload (msg : PoseWithCovariance F (Vector F))
    (back : PoseWithCovariance F (FixedBuffer F)) : Prop :=
  back.pose.position = msg.pose.position ∧ SameArray msg.covariance back.covariance

def BoundingBox3D.SamePayload (msg back : BoundingBox3D F) : Prop :=
  back.center.position = msg.center.position ∧ back.size = msg.size

def ObjectHypothesisWithPose.SamePayload (msg : ObjectHypothesisWithPose F (Vector F))
    (back : ObjectHypothesisWithPose F (FixedBuffer F)) : Prop :=
  back.hypothesis = msg.hypothesis ∧ msg.pose.SamePayload back.pose

end Ros

/-- The two messages are of one type and carry the same payload. -/
def SamePayload : RosMessage F (Vector F) → RosMessage F (FixedBuffer F) → Prop
  | .accelWithCovarianceStamped msg, .accelWithCovarianceStamped back =>
      back.accel.accel = msg.accel.accel ∧
        Ros.SameArray msg.accel.covariance back.accel.covariance
  | .poseWithCovariance msg, .poseWithCovariance back => msg.SamePayload back
  | .odometry msg, .odometry back =>
      msg.pose.SamePayload back.pose ∧ back.twist.twist = msg.twist.twist ∧
        Ros.SameArray msg.twist.covariance back.twist.covariance
  | .imu msg, .imu back =>
      Ros.SameArray msg.orientationCovariance back.orientationCovariance ∧
        back.angularVelocity = msg.angularVelocity ∧
        Ros.SameArray msg.angularVelocityCovariance back.angularVelocityCovariance ∧
        back.linearAcceleration = msg.linearAcceleration ∧
        Ros.SameArray msg.linearAccelerationCovariance back.linearAccelerationCovariance
  | .magneticField msg, .magneticField back =>
      back.magneticField = msg.magneticField ∧
        Ros.SameArray msg.magneticFieldCovariance back.magneticFieldCovariance
  | .joy msg, .joy back => back.axes = msg.axes ∧ back.buttons = msg.buttons
  | .boundingBox3D msg, .boundingBox3D back => msg.SamePayload back
  | .objectHypothesisWithPose msg, .objectHypothesisWithPose back => msg.SamePayload back
  | .detection3D msg, .detection3D back =>
      msg.bbox.SamePayload back.bbox ∧
        List.Forall₂ Ros.ObjectHypothesisWithPose.SamePayload msg.results back.results
  | _, _ => False

/-! ## The parts that come back -/

theorem covariance3D_back (v : Vector F 9) :
    Ros.SameArray v (Core.convertCovariance3D (Ros.convertCovariance3D v)) := FixedBuffer.copy_toList v

theorem covariance6D_back (v : Vector F 36) :
    Ros.SameArray v (Core.convertCovariance6D (Ros.convertCovariance6D v)) := FixedBuffer.copy_toList v

theorem poseWithCovariance_back (tf2 : Tf2 F) (msg : Ros.PoseWithCovariance F (Vector F)) :
    msg.SamePayload ((msg.convert tf2).convert tf2) :=
  ⟨rfl, covariance6D_back msg.covariance⟩

theorem objectHypothesisWithPose_back (tf2 : Tf2 F)
    (msg : Ros.ObjectHypothesisWithPose F (Vector F)) :
    msg.SamePayload ((msg.convert tf2).convert tf2) :=
  ⟨rfl, poseWithCovariance_back tf2 msg.pose⟩

theorem results_back (tf2 : Tf2 F) (results : List (Ros.ObjectHypothesisWithPose F (Vector F))) :
    List.Forall₂ Ros.ObjectHypothesisWithPose.SamePayload results
      ((results.map (·.convert tf2)).map (·.convert tf2)) := by
  induction results with
  | nil => exact .nil
  | cons result results ih => exact .cons (objectHypothesisWithPose_back tf2 result) ih

theorem seconds_of_nonneg {stamp : Ros.Time} (h : 0 ≤ stamp.sec) :
    ∃ t, stamp.seconds = some t ∧ 0 ≤ t := by
  refine ⟨stamp.sec + stamp.nanosec / 1000000000, if_neg (by omega), ?_⟩
  have hsec : (0 : Rat) ≤ stamp.sec := by exact_mod_cast h
  have hnanosec : (0 : Rat) ≤ stamp.nanosec := by exact_mod_cast Nat.zero_le _
  positivity

theorem converted_of_seconds {α β : Type} {stamp : Ros.Time} {t : Rat} (h : stamp.seconds = some t)
    (core : Rat → α) (ros : α → β) :
    ((do let timeStamp ← stamp.seconds; return core timeStamp : Option α).map ros) =
      some (ros (core t)) := by
  rw [h]
  rfl

/-! ## Round trips -/

/-- The pose and the twist of an odometry message come back, and zeros for the covariance of the
twist. -/
theorem odometry_back [Zero F] [One F] (tf2 : Tf2 F) (msg : Ros.Odometry F (Vector F))
    (hstamp : 0 ≤ msg.header.stamp.sec) :
    ∃ back, (RosMessage.odometry msg).roundTrip tf2 = some (.odometry back) ∧
      msg.pose.SamePayload back.pose ∧ back.twist.twist = msg.twist.twist ∧
      back.twist.covariance = .ofVector (Vector.replicate 36 0) := by
  obtain ⟨t, ht, -⟩ := seconds_of_nonneg hstamp
  refine ⟨?back, ?converted, ?parts⟩
  case converted => exact converted_of_seconds ht _ _
  exact ⟨poseWithCovariance_back tf2 msg.pose, rfl, rfl⟩

/-- **Round trip.** A message whose stamp is not negative comes back, with its payload exactly if it is
no odometry message or the covariance of its twist is zero. -/
theorem roundTrip_payload_iff [Zero F] [One F] (tf2 : Tf2 F) (m : RosMessage F (Vector F))
    (hstamp : ∀ stamp, m.stamp = some stamp → 0 ≤ stamp.sec) :
    ∃ back, m.roundTrip tf2 = some back ∧
      (SamePayload m back ↔
        ∀ msg, m = .odometry msg → msg.twist.covariance = Vector.replicate 36 0) := by
  cases m with
  | accelWithCovarianceStamped msg =>
    obtain ⟨t, ht, -⟩ := seconds_of_nonneg (hstamp _ rfl)
    refine ⟨_, converted_of_seconds ht _ _, ?_⟩
    exact iff_of_true ⟨rfl, covariance6D_back _⟩ nofun
  | poseWithCovariance msg =>
    refine ⟨_, rfl, ?_⟩
    exact iff_of_true (poseWithCovariance_back tf2 msg) nofun
  | odometry msg =>
    obtain ⟨back, hback, hpose, htwist, hzeros⟩ := odometry_back tf2 msg (hstamp _ rfl)
    refine ⟨_, hback, ?_⟩
    constructor
    · rintro ⟨-, -, hcovariance⟩ msg' hmsg
      obtain rfl := RosMessage.odometry.inj hmsg
      exact (FixedBuffer.ofVector_inj.mp (hzeros.symm.trans hcovariance)).symm
    · intro hzero
      refine ⟨hpose, htwist, hzeros.trans ?_⟩
      exact FixedBuffer.ofVector_inj.mpr (hzero msg rfl).symm
  | imu msg =>
    obtain ⟨t, ht, hnonneg⟩ := seconds_of_nonneg (hstamp _ rfl)
    refine ⟨_, converted_of_seconds ht _ _, ?_⟩
    refine iff_of_true ?_ nofun
    unfold Core.ImuMsg.convert
    rw [if_neg (not_lt.mpr hnonneg)]
    exact ⟨covariance3D_back _, rfl, covariance3D_back _, rfl, covariance3D_back _⟩
  | magneticField msg =>
    obtain ⟨t, ht, hnonneg⟩ := seconds_of_nonneg (hstamp _ rfl)
    refine ⟨_, converted_of_seconds ht _ _, ?_⟩
    refine iff_of_true ?_ nofun
    unfold Core.MagneticFieldMsg.convert
    rw [if_neg (not_lt.mpr hnonneg)]
    exact ⟨rfl, covariance3D_back _⟩
  | joy msg =>
    obtain ⟨t, ht, -⟩ := seconds_of_nonneg (hstamp _ rfl)
    refine ⟨_, converted_of_seconds ht _ _, ?_⟩
    exact iff_of_true ⟨rfl, rfl⟩ nofun
  | boundingBox3D msg =>
    refine ⟨_, rfl, ?_⟩
    exact iff_of_true ⟨rfl, rfl⟩ nofun
  | objectHypothesisWithPose msg =>
    refine ⟨_, rfl, ?_⟩
    exact iff_of_true (objectHypothesisWithPose_back tf2 msg) nofun
  | detection3D msg =>
    obtain ⟨t, ht, -⟩ := seconds_of_nonneg (hstamp _ rfl)
    refine ⟨_, converted_of_seconds ht _ _, ?_⟩
    exact iff_of_true ⟨⟨rfl, rfl⟩, results_back tf2 msg.results⟩ nofun

/-! ## The covariance of a twist -/

/-- An odometry message with the given covariance of the twist. -/
def odometryWithTwistCovariance (covariance : Vector Rat 36) : Ros.Odometry Rat (Vector Rat) where
  header := ⟨⟨5, 0⟩, "odom"⟩
  childFrameId := "base_link"
  pose := ⟨⟨⟨1, 2, 3⟩, ⟨0, 0, 0, 1⟩⟩, Vector.replicate 36 2⟩
  twist := ⟨⟨⟨4, 5, 6⟩, ⟨7, 8, 9⟩⟩, covariance⟩

/-- A twist without a covariance comes back. -/
theorem zeroTwistCovariance_back :
    ∃ back, (RosMessage.odometry (odometryWithTwistCovariance (Vector.replicate 36 0))).roundTrip
        identityTf2 = some back ∧
      SamePayload (.odometry (odometryWithTwistCovariance (Vector.replicate 36 0))) back := by
  obtain ⟨back, hback, hiff⟩ := roundTrip_payload_iff identityTf2
    (.odometry (odometryWithTwistCovariance (Vector.replicate 36 0)))
    (by rintro stamp ⟨⟩; decide)
  refine ⟨back, hback, hiff.mpr ?_⟩
  rintro msg ⟨⟩
  rfl

/-- The covariance of a twist comes back as zeros. -/
theorem twistCovariance_lost :
    ∃ back, (RosMessage.odometry (odometryWithTwistCovariance (Vector.replicate 36 1))).roundTrip
        identityTf2 = some (.odometry back) ∧
      back.twist.covariance = .ofVector (Vector.replicate 36 0) ∧
      ¬ SamePayload (.odometry (odometryWithTwistCovariance (Vector.replicate 36 1)))
        (.odometry back) := by
  obtain ⟨back, hback, -, -, hzeros⟩ := odometry_back identityTf2
    (odometryWithTwistCovariance (Vector.replicate 36 1)) (by decide)
  refine ⟨back, hback, hzeros, ?_⟩
  rintro ⟨-, -, hcovariance⟩
  have hones := FixedBuffer.ofVector_inj.mp (hzeros.symm.trans hcovariance)
  have hfirst := congrArg (fun v => v[0]) hones
  exact absurd hfirst (by decide)

end TranslateUtility
