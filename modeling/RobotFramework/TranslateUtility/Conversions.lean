import Mathlib.Data.Rat.Defs
import RobotFramework.FixedBuffer

/-!
# Message conversions

`TranslateUtility` converts the ROS 2 messages of geometry, sensors and vision to the messages of the
framework's core and back. A ROS message has its covariance in a fixed array, a core message in a vector
of any length. Numbers are of any type, as they are only copied, and times are exact; the orientation
goes through `tf2`, which is a parameter. Of the core messages the fields are those the code assigns.

The arrays of a received ROS message are `Vector`s; those of a converted one are `FixedBuffer`s, which
show what the copying has written.
-/

namespace TranslateUtility

/-! ## ROS messages -/

namespace Ros

/-- `builtin_interfaces::msg::Time`. -/
structure Time where
  sec : Int
  nanosec : Nat
  deriving DecidableEq, Repr

/-- `std_msgs::msg::Header`. -/
structure Header where
  stamp : Time
  frameId : String
  deriving DecidableEq, Repr

/-- `geometry_msgs::msg::Vector3`. -/
structure Vector3 (F : Type) where
  x : F
  y : F
  z : F
  deriving DecidableEq, Repr

/-- `geometry_msgs::msg::Point`. -/
structure Point (F : Type) where
  x : F
  y : F
  z : F
  deriving DecidableEq, Repr

/-- `geometry_msgs::msg::Quaternion`. -/
structure Quaternion (F : Type) where
  x : F
  y : F
  z : F
  w : F
  deriving DecidableEq, Repr

/-- `geometry_msgs::msg::Accel`. -/
structure Accel (F : Type) where
  linear : Vector3 F
  angular : Vector3 F
  deriving DecidableEq, Repr

/-- `geometry_msgs::msg::Twist`. -/
structure Twist (F : Type) where
  linear : Vector3 F
  angular : Vector3 F
  deriving DecidableEq, Repr

/-- `geometry_msgs::msg::Pose`. -/
structure Pose (F : Type) where
  position : Point F
  orientation : Quaternion F
  deriving DecidableEq, Repr

/-- `geometry_msgs::msg::AccelWithCovariance`. -/
structure AccelWithCovariance (F : Type) (A : Nat → Type) where
  accel : Accel F
  covariance : A 36

/-- `geometry_msgs::msg::AccelWithCovarianceStamped`. -/
structure AccelWithCovarianceStamped (F : Type) (A : Nat → Type) where
  header : Header
  accel : AccelWithCovariance F A

/-- `geometry_msgs::msg::PoseWithCovariance`. -/
structure PoseWithCovariance (F : Type) (A : Nat → Type) where
  pose : Pose F
  covariance : A 36

/-- `geometry_msgs::msg::TwistWithCovariance`. -/
structure TwistWithCovariance (F : Type) (A : Nat → Type) where
  twist : Twist F
  covariance : A 36

/-- `nav_msgs::msg::Odometry`. -/
structure Odometry (F : Type) (A : Nat → Type) where
  header : Header
  childFrameId : String
  pose : PoseWithCovariance F A
  twist : TwistWithCovariance F A

/-- `sensor_msgs::msg::Imu`. -/
structure Imu (F : Type) (A : Nat → Type) where
  header : Header
  orientation : Quaternion F
  orientationCovariance : A 9
  angularVelocity : Vector3 F
  angularVelocityCovariance : A 9
  linearAcceleration : Vector3 F
  linearAccelerationCovariance : A 9

/-- `sensor_msgs::msg::MagneticField`. -/
structure MagneticField (F : Type) (A : Nat → Type) where
  header : Header
  magneticField : Vector3 F
  magneticFieldCovariance : A 9

/-- `sensor_msgs::msg::Joy`. -/
structure Joy (F : Type) where
  header : Header
  axes : List F
  buttons : List Int
  deriving DecidableEq, Repr

/-- `vision_msgs::msg::BoundingBox3D`. -/
structure BoundingBox3D (F : Type) where
  center : Pose F
  size : Vector3 F
  deriving DecidableEq, Repr

/-- `vision_msgs::msg::ObjectHypothesis`. -/
structure ObjectHypothesis (F : Type) where
  classId : String
  score : F
  deriving DecidableEq, Repr

/-- `vision_msgs::msg::ObjectHypothesisWithPose`. -/
structure ObjectHypothesisWithPose (F : Type) (A : Nat → Type) where
  hypothesis : ObjectHypothesis F
  pose : PoseWithCovariance F A

/-- `vision_msgs::msg::Detection3D`. -/
structure Detection3D (F : Type) (A : Nat → Type) where
  header : Header
  results : List (ObjectHypothesisWithPose F A)
  bbox : BoundingBox3D F
  id : String

end Ros

/-! ## Core messages -/

namespace Core

/-- `fast::rf::messages::StandardMsgs::Vector3DMsg`. -/
structure Vector3DMsg (F : Type) where
  x : F
  y : F
  z : F
  deriving DecidableEq, Repr

/-- `fast::rf::messages::StandardMsgs::Covariance3DMsg`; its `DIMENSION` is 3. -/
structure Covariance3DMsg (F : Type) where
  covariance : List F
  deriving DecidableEq, Repr

/-- `fast::rf::messages::StandardMsgs::Covariance6DMsg`; its `DIMENSION` is 6. -/
structure Covariance6DMsg (F : Type) where
  covariance : List F
  deriving DecidableEq, Repr

/-- `fast::rf::messages::GeometryMsgs::PointMsg`. -/
structure PointMsg (F : Type) where
  x : F
  y : F
  z : F
  deriving DecidableEq, Repr

/-- `fast::rf::messages::GeometryMsgs::OrientationMsg`. -/
structure OrientationMsg (F : Type) where
  roll : F
  pitch : F
  yaw : F
  deriving DecidableEq, Repr

/-- `fast::rf::messages::GeometryMsgs::AccelMsg`. -/
structure AccelMsg (F : Type) where
  linear : Vector3DMsg F
  angular : Vector3DMsg F
  deriving DecidableEq, Repr

/-- `fast::rf::messages::GeometryMsgs::TwistMsg`. -/
structure TwistMsg (F : Type) where
  linear : Vector3DMsg F
  angular : Vector3DMsg F
  deriving DecidableEq, Repr

/-- `fast::rf::messages::GeometryMsgs::PoseMsg`. -/
structure PoseMsg (F : Type) where
  position : PointMsg F
  orientation : OrientationMsg F
  deriving DecidableEq, Repr

/-- `fast::rf::messages::GeometryMsgs::AccelWithCovarianceMsg`. -/
structure AccelWithCovarianceMsg (F : Type) where
  timeStamp : Rat
  accel : AccelMsg F
  covariance : Covariance6DMsg F
  deriving DecidableEq, Repr

/-- `fast::rf::messages::GeometryMsgs::PoseWithCovarianceMsg`. -/
structure PoseWithCovarianceMsg (F : Type) where
  pose : PoseMsg F
  covariance : Covariance6DMsg F
  deriving DecidableEq, Repr

/-- The type of the `twist` of an `OdomMsg`. -/
structure OdomTwistMsg (F : Type) where
  twist : TwistMsg F
  deriving DecidableEq, Repr

/-- `fast::rf::messages::GeometryMsgs::OdomMsg`. -/
structure OdomMsg (F : Type) where
  timeStamp : Rat
  pose : PoseWithCovarianceMsg F
  twist : OdomTwistMsg F
  deriving DecidableEq, Repr

/-- `fast::rf::messages::GeometryMsgs::BoundingBox3DMsg`. -/
structure BoundingBox3DMsg (F : Type) where
  center : PoseMsg F
  size : Vector3DMsg F
  deriving DecidableEq, Repr

/-- `fast::rf::messages::SensorMsgs::JoyMsg`. -/
structure JoyMsg (F : Type) where
  timeStamp : Rat
  axes : List F
  buttons : List Int
  deriving DecidableEq, Repr

/-- `fast::rf::messages::SensorMsgs::ImuMsg`. -/
structure ImuMsg (F : Type) where
  timeStamp : Rat
  orientation : OrientationMsg F
  orientationCovariance : Covariance3DMsg F
  angularVelocity : Vector3DMsg F
  angularVelocityCovariance : Covariance3DMsg F
  linearAcceleration : Vector3DMsg F
  linearAccelerationCovariance : Covariance3DMsg F
  deriving DecidableEq, Repr

/-- `fast::rf::messages::SensorMsgs::MagneticFieldMsg`. -/
structure MagneticFieldMsg (F : Type) where
  timeStamp : Rat
  magneticField : Vector3DMsg F
  magneticFieldCovariance : Covariance3DMsg F
  deriving DecidableEq, Repr

/-- `fast::rf::messages::VisionMsgs::ObjectHypothesisWithPoseMsg`. -/
structure ObjectHypothesisWithPoseMsg (F : Type) where
  score : F
  classificationId : String
  pose : PoseWithCovarianceMsg F
  deriving DecidableEq, Repr

/-- `fast::rf::messages::VisionMsgs::Detection3DMsg`. -/
structure Detection3DMsg (F : Type) where
  timeStamp : Rat
  bbox : BoundingBox3DMsg F
  results : List (ObjectHypothesisWithPoseMsg F)
  deriving DecidableEq, Repr

end Core

/-- `tf2`: roll, pitch and yaw of a quaternion, and the quaternion of the three. -/
structure Tf2 (F : Type) where
  getRPY : Ros.Quaternion F → Core.OrientationMsg F
  setRPY : Core.OrientationMsg F → Ros.Quaternion F

variable {F : Type}

/-! ## From ROS to the core -/

namespace Ros

/-- `rclcpp::Time(stamp).seconds()`; a negative stamp throws. -/
def Time.seconds (stamp : Time) : Option Rat :=
  if stamp.sec < 0 then none else some (stamp.sec + stamp.nanosec / 1000000000)

def Vector3.convert (msg : Vector3 F) : Core.Vector3DMsg F where
  x := msg.x
  y := msg.y
  z := msg.z

def Point.convert (msg : Point F) : Core.PointMsg F where
  x := msg.x
  y := msg.y
  z := msg.z

def Quaternion.convert (tf2 : Tf2 F) (msg : Quaternion F) : Core.OrientationMsg F := tf2.getRPY msg

/-- `convert_covariance3D`, from an array. -/
def convertCovariance3D (msg : Vector F 9) : Core.Covariance3DMsg F := ⟨msg.toList⟩

/-- `convert_covariance6D`, from an array. -/
def convertCovariance6D (msg : Vector F 36) : Core.Covariance6DMsg F := ⟨msg.toList⟩

def Accel.convert (msg : Accel F) : Core.AccelMsg F where
  linear := msg.linear.convert
  angular := msg.angular.convert

def Twist.convert (msg : Twist F) : Core.TwistMsg F where
  linear := msg.linear.convert
  angular := msg.angular.convert

def Pose.convert (tf2 : Tf2 F) (msg : Pose F) : Core.PoseMsg F where
  position := msg.position.convert
  orientation := msg.orientation.convert tf2

def AccelWithCovarianceStamped.convert (msg : AccelWithCovarianceStamped F (Vector F)) :
    Option (Core.AccelWithCovarianceMsg F) := do
  let timeStamp ← msg.header.stamp.seconds
  return {
    timeStamp := timeStamp
    accel := msg.accel.accel.convert
    covariance := convertCovariance6D msg.accel.covariance }

def PoseWithCovariance.convert (tf2 : Tf2 F) (msg : PoseWithCovariance F (Vector F)) :
    Core.PoseWithCovarianceMsg F where
  pose := msg.pose.convert tf2
  covariance := convertCovariance6D msg.covariance

def Odometry.convert (tf2 : Tf2 F) (msg : Odometry F (Vector F)) : Option (Core.OdomMsg F) := do
  let timeStamp ← msg.header.stamp.seconds
  return {
    timeStamp := timeStamp
    pose := msg.pose.convert tf2
    twist := { twist := msg.twist.twist.convert } }

def BoundingBox3D.convert (tf2 : Tf2 F) (msg : BoundingBox3D F) : Core.BoundingBox3DMsg F where
  center := msg.center.convert tf2
  size := msg.size.convert

def Joy.convert (msg : Joy F) : Option (Core.JoyMsg F) := do
  let timeStamp ← msg.header.stamp.seconds
  return {
    timeStamp := timeStamp
    axes := msg.axes
    buttons := msg.buttons }

def Imu.convert (tf2 : Tf2 F) (data : Imu F (Vector F)) : Option (Core.ImuMsg F) := do
  let timeStamp ← data.header.stamp.seconds
  return {
    timeStamp := timeStamp
    orientation := data.orientation.convert tf2
    orientationCovariance := convertCovariance3D data.orientationCovariance
    angularVelocity := data.angularVelocity.convert
    angularVelocityCovariance := convertCovariance3D data.angularVelocityCovariance
    linearAcceleration := data.linearAcceleration.convert
    linearAccelerationCovariance := convertCovariance3D data.linearAccelerationCovariance }

def MagneticField.convert (data : MagneticField F (Vector F)) : Option (Core.MagneticFieldMsg F) := do
  let timeStamp ← data.header.stamp.seconds
  return {
    timeStamp := timeStamp
    magneticField := data.magneticField.convert
    magneticFieldCovariance := convertCovariance3D data.magneticFieldCovariance }

def ObjectHypothesisWithPose.convert (tf2 : Tf2 F) (msg : ObjectHypothesisWithPose F (Vector F)) :
    Core.ObjectHypothesisWithPoseMsg F where
  score := msg.hypothesis.score
  classificationId := msg.hypothesis.classId
  pose := msg.pose.convert tf2

def Detection3D.convert (tf2 : Tf2 F) (msg : Detection3D F (Vector F)) :
    Option (Core.Detection3DMsg F) := do
  let timeStamp ← msg.header.stamp.seconds
  return {
    timeStamp := timeStamp
    bbox := msg.bbox.convert tf2
    results := msg.results.map (·.convert tf2) }

end Ros

/-! ## From the core to ROS -/

namespace Core

/-- `rclcpp::Time(static_cast<int64_t>(time_stamp * 1e9))`, as a message. -/
def stamp (timeStamp : Rat) : Ros.Time :=
  let nanoseconds := (timeStamp * 1000000000).num.tdiv (timeStamp * 1000000000).den
  { sec := nanoseconds / 1000000000
    nanosec := (nanoseconds % 1000000000).toNat }

/-- A header with the given stamp. -/
def header (timeStamp : Rat) : Ros.Header where
  stamp := stamp timeStamp
  frameId := ""

def Vector3DMsg.convert (msg : Vector3DMsg F) : Ros.Vector3 F where
  x := msg.x
  y := msg.y
  z := msg.z

def PointMsg.convert (msg : PointMsg F) : Ros.Point F where
  x := msg.x
  y := msg.y
  z := msg.z

def OrientationMsg.convert (tf2 : Tf2 F) (msg : OrientationMsg F) : Ros.Quaternion F := tf2.setRPY msg

/-- `convert_covariance3D`, to an array: `std::copy` to the start of an array that is not initialized. -/
def convertCovariance3D (msg : Covariance3DMsg F) : FixedBuffer F 9 := .copy 9 msg.covariance

/-- `convert_covariance6D`, to an array. -/
def convertCovariance6D (msg : Covariance6DMsg F) : FixedBuffer F 36 := .copy 36 msg.covariance

def AccelMsg.convert (msg : AccelMsg F) : Ros.Accel F where
  linear := msg.linear.convert
  angular := msg.angular.convert

def TwistMsg.convert (msg : TwistMsg F) : Ros.Twist F where
  linear := msg.linear.convert
  angular := msg.angular.convert

def PoseMsg.convert (tf2 : Tf2 F) (msg : PoseMsg F) : Ros.Pose F where
  position := msg.position.convert
  orientation := msg.orientation.convert tf2

def AccelWithCovarianceMsg.convert (msg : AccelWithCovarianceMsg F) :
    Ros.AccelWithCovarianceStamped F (FixedBuffer F) where
  header := header msg.timeStamp
  accel := {
    accel := msg.accel.convert
    covariance := convertCovariance6D msg.covariance }

def PoseWithCovarianceMsg.convert (tf2 : Tf2 F) (msg : PoseWithCovarianceMsg F) :
    Ros.PoseWithCovariance F (FixedBuffer F) where
  pose := msg.pose.convert tf2
  covariance := convertCovariance6D msg.covariance

def BoundingBox3DMsg.convert (tf2 : Tf2 F) (msg : BoundingBox3DMsg F) : Ros.BoundingBox3D F where
  center := msg.center.convert tf2
  size := msg.size.convert

def JoyMsg.convert (msg : JoyMsg F) : Ros.Joy F where
  header := header msg.timeStamp
  axes := msg.axes
  buttons := msg.buttons

def ObjectHypothesisWithPoseMsg.convert (tf2 : Tf2 F) (msg : ObjectHypothesisWithPoseMsg F) :
    Ros.ObjectHypothesisWithPose F (FixedBuffer F) where
  hypothesis := {
    classId := msg.classificationId
    score := msg.score }
  pose := msg.pose.convert tf2

def Detection3DMsg.convert (tf2 : Tf2 F) (msg : Detection3DMsg F) :
    Ros.Detection3D F (FixedBuffer F) where
  header := header msg.timeStamp
  results := msg.results.map (·.convert tf2)
  bbox := msg.bbox.convert tf2
  id := ""

section Zero

variable [Zero F] [One F]

/-- An array of a new ROS message. -/
def zeros (F : Type) [Zero F] (size : Nat) : FixedBuffer F size := .ofVector (Vector.replicate size 0)

/-- A new `geometry_msgs::msg::Vector3`. -/
def zeroVector3 : Ros.Vector3 F := ⟨0, 0, 0⟩

/-- A new `geometry_msgs::msg::Quaternion`. -/
def unitQuaternion : Ros.Quaternion F := ⟨0, 0, 0, 1⟩

def OdomMsg.convert (tf2 : Tf2 F) (msg : OdomMsg F) : Ros.Odometry F (FixedBuffer F) where
  header := header msg.timeStamp
  childFrameId := ""
  pose := msg.pose.convert tf2
  twist := {
    twist := msg.twist.twist.convert
    covariance := zeros F 36 }

/-- A message with a negative time is not converted. -/
def ImuMsg.convert (tf2 : Tf2 F) (data : ImuMsg F) : Ros.Imu F (FixedBuffer F) :=
  if data.timeStamp < 0 then
    { header := header 0
      orientation := unitQuaternion
      orientationCovariance := zeros F 9
      angularVelocity := zeroVector3
      angularVelocityCovariance := zeros F 9
      linearAcceleration := zeroVector3
      linearAccelerationCovariance := zeros F 9 }
  else
    { header := header data.timeStamp
      orientation := data.orientation.convert tf2
      orientationCovariance := convertCovariance3D data.orientationCovariance
      angularVelocity := data.angularVelocity.convert
      angularVelocityCovariance := convertCovariance3D data.angularVelocityCovariance
      linearAcceleration := data.linearAcceleration.convert
      linearAccelerationCovariance := convertCovariance3D data.linearAccelerationCovariance }

/-- A message with a negative time is not converted. -/
def MagneticFieldMsg.convert (data : MagneticFieldMsg F) : Ros.MagneticField F (FixedBuffer F) :=
  if data.timeStamp < 0 then
    { header := header 0
      magneticField := zeroVector3
      magneticFieldCovariance := zeros F 9 }
  else
    { header := header data.timeStamp
      magneticField := data.magneticField.convert
      magneticFieldCovariance := convertCovariance3D data.magneticFieldCovariance }

end Zero

end Core

end TranslateUtility
