import Mathlib.Data.List.AList
import RobotFramework.History

/-!
# Dispatching messages to plugins

`run_analyzer_plugins` selects the topics that some plugin matches, reads the messages of the bag on them
and gives each message to the plugins of its topic. The message is one object, and a plugin gets it as the
plugins before have left it. A plugin that has failed once gets no more messages; what is no `Exception`
ends the scan. At the end every plugin is closed. What is printed is not part of the model, and no plugin
changes a message after its call.
-/

namespace LogAnalysis

open History

/-! ## What the code works with -/

/-- An entry of `topics_and_types`; no message count means that `int` raises. -/
structure TopicInfo where
  name : Option String
  type : Option String
  messageCount : Option Int
  deriving DecidableEq

/-- A call of a plugin, other than `matches`. -/
inductive PluginCall (Message : Type) where
  | configureTopic (topicName : String) (messageType : Option String)
  | process (topicName : String) (message : Message)
  | close
  deriving DecidableEq

/-- How a call of `process` ends. -/
inductive ProcessEnd where
  | returned
  | raisedException
  /-- Something that `except Exception` does not catch, such as `SystemExit`. -/
  | raisedOther
  deriving DecidableEq

/-- The code of the plugins: which topics they match, whether `configure_topic` raises, and how a call of
`process` leaves the message and ends. What `process` does may depend on all calls of it before. -/
structure PluginCode (Plugin Message : Type) where
  matchesTopic : Plugin → String → Option String → Bool
  configureFails : Plugin → String → Option String → Bool
  process : Plugin → List (String × Message) → String × Message → Message × ProcessEnd

/-- The ROS 2 Python modules, with a bag that is opened: `read` gives the messages that a reader whose
filter is set to some topics gives until it ends or raises. -/
structure Ros2 (Message Data MessageClass : Type) where
  importFails : Bool
  getMessage : Option String → Option MessageClass
  deserializeMessage : Data → MessageClass → Option Message
  read : List String → List (String × Data)

section Code

variable {Plugin Message Data MessageClass : Type} [DecidableEq Plugin]
  (code : PluginCode Plugin Message) (ros : Ros2 Message Data MessageClass)

/-! ## Selecting the topics -/

/-- `message_classes` and `topic_plugins`, with the calls made so far. -/
structure Selection (Plugin Message MessageClass : Type) where
  messageClasses : AList fun _ : String => Option String × MessageClass
  topicPlugins : AList fun _ : String => List Plugin
  calls : List (Plugin × PluginCall Message)

/-- The calls of `configure_topic` up to the first that raises, and whether none does. -/
def configureTopic (topicName : String) (messageType : Option String) :
    List Plugin → List (Plugin × PluginCall Message) × Bool
  | [] => ([], true)
  | plugin :: plugins =>
    let call := (plugin, .configureTopic topicName messageType)
    if code.configureFails plugin topicName messageType then ([call], false)
    else
      let (calls, configured) := configureTopic topicName messageType plugins
      (call :: calls, configured)

/-- The loop body over `topics_and_types`. -/
def selectTopic (plugins : List Plugin) (s : Selection Plugin Message MessageClass)
    (topicInfo : TopicInfo) : Selection Plugin Message MessageClass :=
  match topicInfo.name with
  | none => s
  | some topicName =>
    let matchingPlugins := plugins.filter (code.matchesTopic · topicName topicInfo.type)
    if topicName = "" ∨ matchingPlugins = [] then s
    else match ros.getMessage topicInfo.type with
      | none => s
      | some messageClass =>
        let (calls, configured) := configureTopic code topicName topicInfo.type matchingPlugins
        { messageClasses := s.messageClasses.insert topicName (topicInfo.type, messageClass)
          topicPlugins :=
            if configured then s.topicPlugins.insert topicName matchingPlugins else s.topicPlugins
          calls := s.calls ++ calls }

def selectTopics (plugins : List Plugin) (topicsAndTypes : List TopicInfo) :
    Selection Plugin Message MessageClass :=
  run (selectTopic code ros plugins) ⟨∅, ∅, []⟩ topicsAndTypes

/-! ## Scanning the bag -/

/-- The calls of `process` that a plugin has got. -/
def processed (plugin : Plugin) (calls : List (Plugin × PluginCall Message)) :
    List (String × Message) :=
  calls.filterMap fun
    | (p, .process topicName message) => if p = plugin then some (topicName, message) else none
    | _ => none

/-- The calls made so far, `failed_plugins`, and whether the scan has been left by what is no
`Exception`. -/
structure Scan (Plugin Message : Type) where
  calls : List (Plugin × PluginCall Message)
  failedPlugins : List Plugin
  interrupted : Bool

/-- The loop body over the plugins of a topic, with the message as it is by then. -/
def dispatch (topicName : String) (s : Scan Plugin Message × Message) (plugin : Plugin) :
    Scan Plugin Message × Message :=
  let (scan, message) := s
  if scan.interrupted then s
  else if plugin ∈ scan.failedPlugins then s
  else
    let (changed, processEnd) :=
      code.process plugin (processed plugin scan.calls) (topicName, message)
    ({ calls := scan.calls ++ [(plugin, .process topicName message)]
       failedPlugins :=
         if processEnd = .raisedException then scan.failedPlugins ++ [plugin]
         else scan.failedPlugins
       interrupted := processEnd = .raisedOther }, changed)

/-- The loop over the messages; it ends at one that cannot be deserialized. -/
def scan (selection : Selection Plugin Message MessageClass) (s : Scan Plugin Message) :
    List (String × Data) → Scan Plugin Message
  | [] => s
  | (topicName, data) :: messages =>
    match selection.messageClasses.lookup topicName with
    | none => scan selection s messages
    | some (_, messageClass) =>
      match ros.deserializeMessage data messageClass with
      | none => s
      | some message =>
        let plugins := (selection.topicPlugins.lookup topicName).getD []
        let dispatched := (run (dispatch code topicName) (s, message) plugins).1
        if dispatched.interrupted then dispatched else scan selection dispatched messages

/-! ## The whole run -/

/-- All calls of the plugins, and whether the function returns. -/
structure PluginRun (Plugin Message : Type) where
  calls : List (Plugin × PluginCall Message)
  returned : Bool
  deriving DecidableEq

def runAnalyzerPlugins (topicsAndTypes : List TopicInfo) (plugins : List Plugin) :
    PluginRun Plugin Message :=
  let closeAll := plugins.map fun plugin => (plugin, PluginCall.close)
  if ros.importFails then ⟨closeAll, true⟩
  else
    let selection := selectTopics code ros plugins topicsAndTypes
    let selectedTopics := selection.messageClasses.keys
    if selectedTopics = [] then ⟨selection.calls ++ closeAll, true⟩
    else if topicsAndTypes.any fun topicInfo =>
        topicInfo.name.any (· ∈ selectedTopics) && topicInfo.messageCount.isNone then
      ⟨selection.calls, false⟩
    else
      let scanned := scan code ros selection ⟨selection.calls, [], false⟩ (ros.read selectedTopics)
      ⟨scanned.calls ++ closeAll, !scanned.interrupted⟩

end Code

end LogAnalysis
