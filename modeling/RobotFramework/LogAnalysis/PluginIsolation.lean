import RobotFramework.LogAnalysis.PluginDispatch

/-!
# Plugins do not interfere

What a plugin gets depends on its own code only, whatever the other plugins do, as long as the topic list
gives each topic one type, no plugin changes a message and none raises more than an `Exception`: the
messages of the bag on the topics it matches, up to the first that it fails on (`plugins_isolated`). Where a
topic is listed with two types, the plugins that match the last listing take the messages from those that
match an earlier one, a plugin that changes a message changes it for those after it, and one that exits ends
the scan for all (`plugins_interfere`). However a run ends, each plugin has been closed once
(`closed_once`).
-/

namespace LogAnalysis

open History

section Isolation

variable {Plugin Message Data MessageClass : Type}
  {code : PluginCode Plugin Message} {ros : Ros2 Message Data MessageClass}

/-! ## The selection -/

/-- A call of `process` makes the plugin a failed one. -/
def PluginCode.processFails (code : PluginCode Plugin Message) (plugin : Plugin)
    (past : List (String × Message)) (call : String × Message) : Bool :=
  (code.process plugin past call).2 = .raisedException

/-- The plugins leave the messages as they are, and what they raise is caught. -/
structure PluginCode.Confined (code : PluginCode Plugin Message) : Prop where
  keeps : ∀ plugin past call, (code.process plugin past call).1 = call.2
  caught : ∀ plugin past call, (code.process plugin past call).2 ≠ .raisedOther

/-- What is assumed of a bag with its topic list and of the plugins: message types load, messages
deserialize, message counts are numeric, `configure_topic` does not raise, the plugins are confined, and on
the topics of the filter the reader gives all messages of the bag in their order. -/
structure WellBehaved (code : PluginCode Plugin Message) (ros : Ros2 Message Data MessageClass)
    (topicsAndTypes : List TopicInfo) (bag : List (String × Data)) : Prop where
  imports : ros.importFails = false
  types : ∀ info ∈ topicsAndTypes, (ros.getMessage info.type).isSome = true
  configures : ∀ plugin topicName type, code.configureFails plugin topicName type = false
  confined : code.Confined
  counts : ∀ info ∈ topicsAndTypes, info.messageCount.isSome = true
  messages : ∀ m ∈ bag, ∀ info ∈ topicsAndTypes, info.name = some m.1 → ∀ messageClass,
    ros.getMessage info.type = some messageClass →
      (ros.deserializeMessage m.2 messageClass).isSome = true
  reads : ∀ topics, (ros.read topics).filter (·.1 ∈ topics) = bag.filter (·.1 ∈ topics)

/-- The type of an entry under which it selects a topic. -/
def selectedType (code : PluginCode Plugin Message) (plugins : List Plugin) (topicName : String)
    (info : TopicInfo) : Option (Option String) :=
  if info.name = some topicName ∧ topicName ≠ "" ∧
      plugins.filter (code.matchesTopic · topicName info.type) ≠ [] then some info.type
  else none

theorem configureTopic_of_configures
    (h : ∀ plugin topicName type, code.configureFails plugin topicName type = false)
    (topicName : String) (type : Option String) (plugins : List Plugin) :
    configureTopic code topicName type plugins =
      (plugins.map fun plugin => (plugin, .configureTopic topicName type), true) := by
  induction plugins with
  | nil => rfl
  | cons plugin plugins ih =>
    unfold configureTopic
    rw [ih]
    simp [h]

theorem selectTopic_cases (code : PluginCode Plugin Message) (ros : Ros2 Message Data MessageClass)
    (plugins : List Plugin) (s : Selection Plugin Message MessageClass) (info : TopicInfo) :
    -- Nothing: the entry has no name, no plugin matches it, or its type does not load.
    (selectTopic code ros plugins s info = s ∧ ∀ topicName, info.name = some topicName →
      topicName ≠ "" → plugins.filter (code.matchesTopic · topicName info.type) ≠ [] →
        ros.getMessage info.type = none) ∨
    -- Its topic is selected, with the plugins that match it if all of them could be configured.
    (∃ topicName messageClass, info.name = some topicName ∧ topicName ≠ "" ∧
      plugins.filter (code.matchesTopic · topicName info.type) ≠ [] ∧
      ros.getMessage info.type = some messageClass ∧
      selectTopic code ros plugins s info =
        let matchingPlugins := plugins.filter (code.matchesTopic · topicName info.type)
        let (calls, configured) := configureTopic code topicName info.type matchingPlugins
        { messageClasses := s.messageClasses.insert topicName (info.type, messageClass)
          topicPlugins :=
            if configured then s.topicPlugins.insert topicName matchingPlugins else s.topicPlugins
          calls := s.calls ++ calls }) := by
  unfold selectTopic
  cases hname : info.name with
  | none => exact Or.inl ⟨rfl, nofun⟩
  | some name =>
    dsimp only
    by_cases hskip : name = "" ∨ plugins.filter (code.matchesTopic · name info.type) = []
    · rw [if_pos hskip]
      refine Or.inl ⟨rfl, ?_⟩
      rintro topicName ⟨⟩ hnonempty hmatching
      exact absurd hskip (not_or.mpr ⟨hnonempty, hmatching⟩)
    · rw [if_neg hskip]
      obtain ⟨hnonempty, hmatching⟩ := not_or.mp hskip
      cases hclass : ros.getMessage info.type with
      | none => exact Or.inl ⟨rfl, fun _ _ _ _ => rfl⟩
      | some messageClass =>
        exact Or.inr ⟨name, messageClass, rfl, hnonempty, hmatching, rfl, rfl⟩

theorem selectTopic_of_not_selected (ros : Ros2 Message Data MessageClass) {plugins : List Plugin}
    {topicName : String} {info : TopicInfo}
    (h : selectedType code plugins topicName info = none)
    (s : Selection Plugin Message MessageClass) :
    (selectTopic code ros plugins s info).messageClasses.lookup topicName =
        s.messageClasses.lookup topicName ∧
      (selectTopic code ros plugins s info).topicPlugins.lookup topicName =
        s.topicPlugins.lookup topicName := by
  rcases selectTopic_cases code ros plugins s info with
    ⟨hsame, -⟩ | ⟨name, messageClass, hname, hnonempty, hmatching, -, hstep⟩
  · rw [hsame]
    exact ⟨rfl, rfl⟩
  · have hne : topicName ≠ name := by
      rintro rfl
      rw [selectedType, if_pos ⟨hname, hnonempty, hmatching⟩] at h
      exact Option.some_ne_none _ h
    rw [hstep]
    refine ⟨AList.lookup_insert_ne hne, ?_⟩
    dsimp only
    split_ifs
    · exact AList.lookup_insert_ne hne
    · rfl

theorem selectTopic_of_selected {plugins : List Plugin} {topicName : String} {info : TopicInfo}
    {type : Option String} (h : selectedType code plugins topicName info = some type)
    {messageClass : MessageClass} (hclass : ros.getMessage info.type = some messageClass)
    (hconfigures : ∀ plugin topicName type, code.configureFails plugin topicName type = false)
    (s : Selection Plugin Message MessageClass) :
    type = info.type ∧
      (selectTopic code ros plugins s info).messageClasses.lookup topicName =
        some (type, messageClass) ∧
      (selectTopic code ros plugins s info).topicPlugins.lookup topicName =
        some (plugins.filter (code.matchesTopic · topicName type)) := by
  unfold selectedType at h
  split_ifs at h with hselected
  obtain ⟨hname, hnonempty, hmatching⟩ := hselected
  obtain rfl := Option.some.inj h
  rcases selectTopic_cases code ros plugins s info with
    ⟨-, hnone⟩ | ⟨name, messageClass', hname', -, -, hclass', hstep⟩
  · rw [hnone topicName hname hnonempty hmatching] at hclass
    exact absurd hclass.symm (Option.some_ne_none _)
  · obtain rfl := Option.some.inj (hname.symm.trans hname')
    obtain rfl := Option.some.inj (hclass.symm.trans hclass')
    rw [hstep]
    dsimp only
    rw [configureTopic_of_configures hconfigures]
    exact ⟨rfl, AList.lookup_insert _, AList.lookup_insert _⟩

/-- The last entry that selects a topic decides about its type and its plugins. -/
theorem lookup_selectTopics (plugins : List Plugin) {topicsAndTypes : List TopicInfo}
    (htypes : ∀ info ∈ topicsAndTypes, (ros.getMessage info.type).isSome = true)
    (hconfigures : ∀ plugin topicName type, code.configureFails plugin topicName type = false)
    (topicName : String) :
    (selectTopics code ros plugins topicsAndTypes).messageClasses.lookup topicName =
        (lastSome (selectedType code plugins topicName) topicsAndTypes).bind
          (fun type => (ros.getMessage type).map (type, ·)) ∧
      (selectTopics code ros plugins topicsAndTypes).topicPlugins.lookup topicName =
        (lastSome (selectedType code plugins topicName) topicsAndTypes).map
          fun type => plugins.filter (code.matchesTopic · topicName type) := by
  revert htypes
  unfold selectTopics
  refine run_invariant (I := fun past (s : Selection Plugin Message MessageClass) =>
    (∀ info ∈ past, (ros.getMessage info.type).isSome = true) →
      s.messageClasses.lookup topicName = (lastSome (selectedType code plugins topicName) past).bind
          (fun type => (ros.getMessage type).map (type, ·)) ∧
        s.topicPlugins.lookup topicName = (lastSome (selectedType code plugins topicName) past).map
          fun type => plugins.filter (code.matchesTopic · topicName type)) ?_ ?_ topicsAndTypes
  · exact fun _ => ⟨rfl, rfl⟩
  · intro past s info ih htypes
    have hpast := ih fun i hi => htypes i (List.mem_append_left _ hi)
    obtain ⟨messageClass, hclass⟩ := Option.isSome_iff_exists.mp
      (htypes info (List.mem_append_right _ (List.mem_singleton_self info)))
    rw [lastSome_concat]
    cases hselected : selectedType code plugins topicName info with
    | none =>
      obtain ⟨hclasses, hplugins⟩ := selectTopic_of_not_selected ros hselected s
      rw [hclasses, hplugins, Option.none_or]
      exact hpast
    | some type =>
      obtain ⟨rfl, hclasses, hplugins⟩ := selectTopic_of_selected hselected hclass hconfigures s
      rw [hclasses, hplugins, Option.some_or, Option.bind_some, hclass]
      exact ⟨rfl, rfl⟩

variable [DecidableEq Plugin]

/-! ## What one plugin sees -/

/-- The calls of `process` that a plugin has got, and whether one has failed. -/
structure PluginView (Message : Type) where
  calls : List (String × Message)
  failed : Bool

def Scan.view (s : Scan Plugin Message) (plugin : Plugin) : PluginView Message where
  calls := processed plugin s.calls
  failed := plugin ∈ s.failedPlugins

/-- A message comes, unless the plugin has failed. -/
def PluginView.receive (fails : List (String × Message) → String × Message → Bool)
    (view : PluginView Message) (call : String × Message) : PluginView Message :=
  if view.failed then view
  else
    { calls := view.calls ++ [call]
      failed := fails view.calls call }

theorem calls_run_receive (fails : List (String × Message) → String × Message → Bool)
    (view : PluginView Message) (messages : List (String × Message)) :
    (run (PluginView.receive fails) view messages).calls =
      view.calls ++ if view.failed then [] else upToFailure fails view.calls messages := by
  induction messages generalizing view with
  | nil => simp [upToFailure]
  | cons call later ih =>
    rw [run_cons, ih, upToFailure_cons]
    unfold PluginView.receive
    cases hfailed : view.failed with
    | true => simp [hfailed]
    | false => simp

theorem processed_append (plugin : Plugin) (calls later : List (Plugin × PluginCall Message)) :
    processed plugin (calls ++ later) = processed plugin calls ++ processed plugin later :=
  List.filterMap_append

/-- A confined plugin that gets a message leaves it, and the scan goes on. -/
theorem dispatch_of_confined (hconfined : code.Confined) (topicName : String) (message : Message)
    {s : Scan Plugin Message} (hs : s.interrupted = false) (p : Plugin) :
    dispatch code topicName (s, message) p =
      (if p ∈ s.failedPlugins then s
        else
          { calls := s.calls ++ [(p, .process topicName message)]
            failedPlugins :=
              if code.processFails p (processed p s.calls) (topicName, message) then
                s.failedPlugins ++ [p]
              else s.failedPlugins
            interrupted := false }, message) := by
  unfold dispatch PluginCode.processFails
  simp only [hs, Bool.false_eq_true, if_false]
  by_cases hfailed : p ∈ s.failedPlugins
  · rw [if_pos hfailed, if_pos hfailed]
  · rw [if_neg hfailed, if_neg hfailed]
    have hkeeps := hconfined.keeps p (processed p s.calls) (topicName, message)
    have hcaught := hconfined.caught p (processed p s.calls) (topicName, message)
    rw [hkeeps, decide_eq_false hcaught]
    simp only [decide_eq_true_eq]

theorem view_dispatch (hconfined : code.Confined) (topicName : String) (message : Message)
    {s : Scan Plugin Message} (hs : s.interrupted = false) (plugin p : Plugin) :
    (dispatch code topicName (s, message) p).1.view plugin =
      if p = plugin then (s.view plugin).receive (code.processFails plugin) (topicName, message)
      else s.view plugin := by
  rw [dispatch_of_confined hconfined topicName message hs]
  unfold PluginView.receive Scan.view
  by_cases hp : p = plugin
  · subst hp
    by_cases hfailed : p ∈ s.failedPlugins
    · simp [hfailed]
    · have hown : processed p [(p, .process topicName message)] = [(topicName, message)] := by
        simp [processed]
      simp only [if_neg hfailed, processed_append, hown, if_true, decide_eq_true_eq]
      cases code.processFails p (processed p s.calls) (topicName, message) <;> simp [hfailed]
  · have hother : processed plugin [(p, .process topicName message)] = [] := by simp [processed, hp]
    simp only [if_neg hp]
    split_ifs
    · rfl
    · simp [processed_append, hother, Ne.symm hp]
    · simp [processed_append, hother]

theorem interrupted_dispatch (hconfined : code.Confined) (topicName : String) (message : Message)
    {s : Scan Plugin Message} (hs : s.interrupted = false) (p : Plugin) :
    (dispatch code topicName (s, message) p).1.interrupted = false ∧
      (dispatch code topicName (s, message) p).2 = message := by
  rw [dispatch_of_confined hconfined topicName message hs]
  refine ⟨?_, rfl⟩
  by_cases hfailed : p ∈ s.failedPlugins
  · rw [if_pos hfailed]
    exact hs
  · rw [if_neg hfailed]

theorem interrupted_run_dispatch (hconfined : code.Confined) (topicName : String) (message : Message)
    {s : Scan Plugin Message} (hs : s.interrupted = false) (plugins : List Plugin) :
    (run (dispatch code topicName) (s, message) plugins).1.interrupted = false := by
  refine (run_invariant (I := fun _ (t : Scan Plugin Message × Message) =>
    t.1.interrupted = false ∧ t.2 = message) ⟨hs, rfl⟩ ?_ plugins).1
  rintro _ ⟨t, message'⟩ p ⟨ht, rfl⟩
  exact interrupted_dispatch hconfined topicName message' ht p

theorem view_run_dispatch (hconfined : code.Confined) (topicName : String) (message : Message)
    {s : Scan Plugin Message} (hs : s.interrupted = false) (plugin : Plugin) {plugins : List Plugin}
    (hnodup : plugins.Nodup) :
    (run (dispatch code topicName) (s, message) plugins).1.view plugin =
      if plugin ∈ plugins then
        (s.view plugin).receive (code.processFails plugin) (topicName, message)
      else s.view plugin := by
  induction plugins generalizing s with
  | nil => simp
  | cons p plugins ih =>
    obtain ⟨hp, hplugins⟩ := List.nodup_cons.mp hnodup
    obtain ⟨hgoes, hkept⟩ := interrupted_dispatch hconfined topicName message hs p
    have hstep : dispatch code topicName (s, message) p =
        ((dispatch code topicName (s, message) p).1, message) := Prod.ext rfl hkept
    rw [run_cons, hstep, ih hgoes hplugins, view_dispatch hconfined topicName message hs]
    by_cases hown : p = plugin
    · subst hown
      simp [hp]
    · simp [hown, Ne.symm hown]

theorem interrupted_scan (hconfined : code.Confined)
    (selection : Selection Plugin Message MessageClass) {s : Scan Plugin Message}
    (hs : s.interrupted = false) (messages : List (String × Data)) :
    (scan code ros selection s messages).interrupted = false := by
  induction messages generalizing s with
  | nil => exact hs
  | cons m messages ih =>
    obtain ⟨topicName, data⟩ := m
    unfold scan
    cases selection.messageClasses.lookup topicName with
    | none => exact ih hs
    | some typed =>
      dsimp only
      cases ros.deserializeMessage data typed.2 with
      | none => exact hs
      | some message =>
        have hgoes := interrupted_run_dispatch hconfined topicName message hs
          ((selection.topicPlugins.lookup topicName).getD [])
        dsimp only
        rw [hgoes, if_neg Bool.false_ne_true]
        exact ih hgoes

/-- What a message of the bag is to a plugin under a selection of topics. -/
def received (ros : Ros2 Message Data MessageClass)
    (selection : Selection Plugin Message MessageClass) (plugin : Plugin) (m : String × Data) :
    Option (String × Message) :=
  match selection.messageClasses.lookup m.1 with
  | none => none
  | some (_, messageClass) =>
    if plugin ∈ (selection.topicPlugins.lookup m.1).getD [] then
      (ros.deserializeMessage m.2 messageClass).map (m.1, ·)
    else none

theorem view_scan (hconfined : code.Confined) (selection : Selection Plugin Message MessageClass)
    {s : Scan Plugin Message} (hs : s.interrupted = false) (plugin : Plugin)
    {messages : List (String × Data)}
    (hdeserialize : ∀ m ∈ messages, ∀ type messageClass,
      selection.messageClasses.lookup m.1 = some (type, messageClass) →
        (ros.deserializeMessage m.2 messageClass).isSome = true)
    (hnodup : ∀ topicName plugins, selection.topicPlugins.lookup topicName = some plugins →
      plugins.Nodup) :
    (scan code ros selection s messages).view plugin =
      run (PluginView.receive (code.processFails plugin)) (s.view plugin)
        (messages.filterMap (received ros selection plugin)) := by
  induction messages generalizing s with
  | nil => rfl
  | cons m messages ih =>
    obtain ⟨topicName, data⟩ := m
    obtain ⟨hfirst, hlater⟩ := List.forall_mem_cons.mp hdeserialize
    unfold scan
    cases hclass : selection.messageClasses.lookup topicName with
    | none =>
      have hnone : received ros selection plugin (topicName, data) = none := by
        unfold received
        rw [hclass]
      rw [List.filterMap_cons_none hnone]
      exact ih hs hlater
    | some typed =>
      obtain ⟨type, messageClass⟩ := typed
      obtain ⟨message, hmessage⟩ := Option.isSome_iff_exists.mp (hfirst type messageClass hclass)
      have hplugins : ((selection.topicPlugins.lookup topicName).getD []).Nodup := by
        cases hlookup : selection.topicPlugins.lookup topicName with
        | none => exact List.nodup_nil
        | some plugins => exact hnodup topicName plugins hlookup
      have hgoes := interrupted_run_dispatch hconfined topicName message hs
        ((selection.topicPlugins.lookup topicName).getD [])
      simp only [hmessage, hgoes, Bool.false_eq_true, if_false]
      rw [ih hgoes hlater, view_run_dispatch hconfined topicName message hs plugin hplugins]
      by_cases hown : plugin ∈ (selection.topicPlugins.lookup topicName).getD []
      · have hsome : received ros selection plugin (topicName, data) = some (topicName, message) := by
          simp [received, hclass, hown, hmessage]
        rw [if_pos hown, List.filterMap_cons_some hsome, run_cons]
      · have hnone : received ros selection plugin (topicName, data) = none := by
          simp [received, hclass, hown]
        rw [if_neg hown, List.filterMap_cons_none hnone]

/-- A plugin gets what it receives up to its first failure. -/
theorem processed_scan (hconfined : code.Confined) (selection : Selection Plugin Message MessageClass)
    {calls : List (Plugin × PluginCall Message)} {plugin : Plugin} (hcalls : processed plugin calls = [])
    {messages : List (String × Data)}
    (hdeserialize : ∀ m ∈ messages, ∀ type messageClass,
      selection.messageClasses.lookup m.1 = some (type, messageClass) →
        (ros.deserializeMessage m.2 messageClass).isSome = true)
    (hnodup : ∀ topicName plugins, selection.topicPlugins.lookup topicName = some plugins →
      plugins.Nodup) :
    processed plugin (scan code ros selection ⟨calls, [], false⟩ messages).calls =
      upToFailure (code.processFails plugin) [] (messages.filterMap (received ros selection plugin)) := by
  show ((scan code ros selection ⟨calls, [], false⟩ messages).view plugin).calls = _
  rw [view_scan hconfined selection rfl plugin hdeserialize hnodup, calls_run_receive]
  show processed plugin calls ++ upToFailure _ (processed plugin calls) _ = _
  rw [hcalls, List.nil_append]

/-! ## The messages of a plugin -/

/-- The plugin matches a listing of the topic. -/
def matchedTopic (code : PluginCode Plugin Message) (topicsAndTypes : List TopicInfo)
    (plugin : Plugin) (topicName : String) : Bool :=
  topicName ≠ "" && topicsAndTypes.any fun info =>
    info.name = some topicName && code.matchesTopic plugin topicName info.type

/-- A message of the bag, with the type its topic is listed with. -/
def deserialized (ros : Ros2 Message Data MessageClass) (topicsAndTypes : List TopicInfo)
    (m : String × Data) : Option (String × Message) :=
  (topicsAndTypes.find? (·.name = some m.1)).bind fun info =>
    (ros.getMessage info.type).bind fun messageClass =>
      (ros.deserializeMessage m.2 messageClass).map (m.1, ·)

/-- The messages of the bag on the topics a plugin matches. -/
def messagesFor (code : PluginCode Plugin Message) (ros : Ros2 Message Data MessageClass)
    (topicsAndTypes : List TopicInfo) (bag : List (String × Data)) (plugin : Plugin) :
    List (String × Message) :=
  (bag.filter fun m => matchedTopic code topicsAndTypes plugin m.1).filterMap
    (deserialized ros topicsAndTypes)

/-- No topic is listed with two types. -/
def OneType (topicsAndTypes : List TopicInfo) : Prop :=
  ∀ info ∈ topicsAndTypes, ∀ info' ∈ topicsAndTypes, ∀ topicName,
    info.name = some topicName → info'.name = some topicName → info.type = info'.type

omit [DecidableEq Plugin] in
theorem matchedTopic_iff {topicsAndTypes : List TopicInfo} {plugin : Plugin} {topicName : String} :
    matchedTopic code topicsAndTypes plugin topicName = true ↔
      topicName ≠ "" ∧ ∃ info ∈ topicsAndTypes,
        info.name = some topicName ∧ code.matchesTopic plugin topicName info.type = true := by
  simp [matchedTopic]

omit [DecidableEq Plugin] in
theorem deserialized_of_oneType {topicsAndTypes : List TopicInfo} (honeType : OneType topicsAndTypes)
    {info : TopicInfo} (hinfo : info ∈ topicsAndTypes) {m : String × Data}
    (hname : info.name = some m.1) :
    deserialized ros topicsAndTypes m = (ros.getMessage info.type).bind fun messageClass =>
      (ros.deserializeMessage m.2 messageClass).map (m.1, ·) := by
  unfold deserialized
  cases hfind : topicsAndTypes.find? (·.name = some m.1) with
  | none =>
    rw [List.find?_eq_none] at hfind
    exact absurd hname (by simpa using hfind info hinfo)
  | some found =>
    have hfound : found.name = some m.1 := by simpa using List.find?_some hfind
    rw [Option.bind_some,
      honeType found (List.mem_of_find?_eq_some hfind) info hinfo m.1 hfound hname]

theorem received_eq {topicsAndTypes : List TopicInfo} (honeType : OneType topicsAndTypes)
    (htypes : ∀ info ∈ topicsAndTypes, (ros.getMessage info.type).isSome = true)
    (hconfigures : ∀ plugin topicName type, code.configureFails plugin topicName type = false)
    {plugins : List Plugin} {plugin : Plugin} (hplugin : plugin ∈ plugins) (m : String × Data) :
    received ros (selectTopics code ros plugins topicsAndTypes) plugin m =
      if matchedTopic code topicsAndTypes plugin m.1 then deserialized ros topicsAndTypes m
      else none := by
  obtain ⟨hclasses, hplugins⟩ := lookup_selectTopics plugins htypes hconfigures m.1
  unfold received
  rw [hclasses, hplugins]
  cases hlast : lastSome (selectedType code plugins m.1) topicsAndTypes with
  | none =>
    rw [if_neg]
    · rfl
    · intro hmatched
      obtain ⟨hnonempty, info, hinfo, hname, hmatches⟩ := matchedTopic_iff.mp hmatched
      have hselects : plugins.filter (code.matchesTopic · m.1 info.type) ≠ [] :=
        List.ne_nil_of_mem (List.mem_filter.mpr ⟨hplugin, hmatches⟩)
      have hnone := lastSome_eq_none_iff.mp hlast info hinfo
      rw [selectedType, if_pos ⟨hname, hnonempty, hselects⟩] at hnone
      exact Option.some_ne_none _ hnone
  | some type =>
    obtain ⟨info, hinfo, hselected⟩ := exists_of_lastSome hlast
    unfold selectedType at hselected
    split_ifs at hselected with hboth
    obtain ⟨hname, hnonempty, -⟩ := hboth
    obtain rfl := Option.some.inj hselected
    obtain ⟨messageClass, hclass⟩ := Option.isSome_iff_exists.mp (htypes info hinfo)
    have hmatched : matchedTopic code topicsAndTypes plugin m.1 =
        code.matchesTopic plugin m.1 info.type := by
      rw [Bool.eq_iff_iff, matchedTopic_iff]
      constructor
      · rintro ⟨-, info', hinfo', hname', hmatches⟩
        rwa [honeType info hinfo info' hinfo' m.1 hname hname']
      · exact fun hmatches => ⟨hnonempty, info, hinfo, hname, hmatches⟩
    rw [hmatched, deserialized_of_oneType honeType hinfo hname]
    simp [hclass, hplugin]

/-! ## Closing -/

def PluginCall.isClose : PluginCall Message → Bool
  | .close => true
  | _ => false

/-- How often a plugin is closed. -/
def closings (plugin : Plugin) (calls : List (Plugin × PluginCall Message)) : Nat :=
  calls.countP fun c => c.1 = plugin && c.2.isClose

omit [DecidableEq Plugin] in
theorem mem_configureTopic {topicName : String} {type : Option String} {plugins : List Plugin}
    {c : Plugin × PluginCall Message} (h : c ∈ (configureTopic code topicName type plugins).1) :
    c.2 = .configureTopic topicName type := by
  induction plugins with
  | nil => exact absurd h List.not_mem_nil
  | cons plugin plugins ih =>
    unfold configureTopic at h
    split_ifs at h
    · rw [List.mem_singleton.mp h]
    · rcases List.mem_cons.mp h with rfl | hlater
      · rfl
      · exact ih hlater

omit [DecidableEq Plugin] in
theorem mem_selectTopics {plugins : List Plugin} {topicsAndTypes : List TopicInfo}
    {c : Plugin × PluginCall Message} (h : c ∈ (selectTopics code ros plugins topicsAndTypes).calls) :
    ∃ topicName type, c.2 = .configureTopic topicName type := by
  revert h c
  unfold selectTopics
  refine run_invariant (I := fun _ (s : Selection Plugin Message MessageClass) =>
    ∀ {c}, c ∈ s.calls → ∃ topicName type, c.2 = .configureTopic topicName type) ?_ ?_ topicsAndTypes
  · exact fun h => absurd h List.not_mem_nil
  · intro _ s info ih c h
    rcases selectTopic_cases code ros plugins s info with
      ⟨hsame, -⟩ | ⟨name, messageClass, -, -, -, -, hstep⟩
    · rw [hsame] at h
      exact ih h
    · rw [hstep] at h
      rcases List.mem_append.mp h with hpast | hnew
      · exact ih hpast
      · exact ⟨name, info.type, mem_configureTopic hnew⟩

theorem processed_selectTopics (plugin : Plugin) (plugins : List Plugin)
    (topicsAndTypes : List TopicInfo) :
    processed plugin (selectTopics code ros plugins topicsAndTypes).calls = [] := by
  unfold processed
  rw [List.filterMap_eq_nil_iff]
  rintro ⟨p, call⟩ h
  obtain ⟨topicName, type, rfl⟩ := mem_selectTopics h
  rfl

theorem closings_selectTopics (plugin : Plugin) (plugins : List Plugin)
    (topicsAndTypes : List TopicInfo) :
    closings plugin (selectTopics code ros plugins topicsAndTypes).calls = 0 := by
  unfold closings
  rw [List.countP_eq_zero]
  intro c h
  obtain ⟨topicName, type, hc⟩ := mem_selectTopics h
  simp [hc, PluginCall.isClose]

theorem closings_dispatch (plugin : Plugin) (topicName : String)
    (s : Scan Plugin Message × Message) (p : Plugin) :
    closings plugin (dispatch code topicName s p).1.calls = closings plugin s.1.calls := by
  unfold dispatch
  dsimp only
  by_cases hleft : s.1.interrupted = true
  · rw [if_pos hleft]
  · rw [if_neg hleft]
    by_cases hfailed : p ∈ s.1.failedPlugins
    · rw [if_pos hfailed]
    · rw [if_neg hfailed]
      simp [closings, PluginCall.isClose]

theorem closings_run_dispatch (plugin : Plugin) (topicName : String)
    (s : Scan Plugin Message × Message) (plugins : List Plugin) :
    closings plugin (run (dispatch code topicName) s plugins).1.calls = closings plugin s.1.calls := by
  refine run_invariant (I := fun _ (t : Scan Plugin Message × Message) =>
    closings plugin t.1.calls = closings plugin s.1.calls) rfl ?_ plugins
  intro _ t p ht
  rw [closings_dispatch, ht]

theorem closings_scan (selection : Selection Plugin Message MessageClass) (s : Scan Plugin Message)
    (messages : List (String × Data)) (plugin : Plugin) :
    closings plugin (scan code ros selection s messages).calls = closings plugin s.calls := by
  induction messages generalizing s with
  | nil => rfl
  | cons m messages ih =>
    obtain ⟨topicName, data⟩ := m
    unfold scan
    cases selection.messageClasses.lookup topicName with
    | none => exact ih s
    | some typed =>
      dsimp only
      cases ros.deserializeMessage data typed.2 with
      | none => rfl
      | some message =>
        dsimp only
        split_ifs
        · exact closings_run_dispatch plugin topicName (s, message) _
        · rw [ih, closings_run_dispatch]

theorem closings_closeAll {plugin : Plugin} {plugins : List Plugin} (hplugin : plugin ∈ plugins)
    (hnodup : plugins.Nodup) (calls : List (Plugin × PluginCall Message)) :
    closings plugin (calls ++ plugins.map fun p => (p, .close)) = closings plugin calls + 1 := by
  unfold closings
  rw [List.countP_append, List.countP_map, ← List.count_eq_one_of_mem hnodup hplugin]
  congr 1
  apply List.countP_congr
  intro p _
  simp [PluginCall.isClose]

/-- With numeric message counts a run ends in one of three ways. -/
theorem runAnalyzerPlugins_of_counts (plugins : List Plugin) {topicsAndTypes : List TopicInfo}
    (hcounts : ∀ info ∈ topicsAndTypes, info.messageCount.isSome = true) :
    let selection := selectTopics code ros plugins topicsAndTypes
    let closeAll := plugins.map fun plugin => (plugin, PluginCall.close)
    runAnalyzerPlugins code ros topicsAndTypes plugins =
      if ros.importFails then ⟨closeAll, true⟩
      else if selection.messageClasses.keys = [] then ⟨selection.calls ++ closeAll, true⟩
      else
        let scanned := scan code ros selection ⟨selection.calls, [], false⟩
          (ros.read selection.messageClasses.keys)
        ⟨scanned.calls ++ closeAll, !scanned.interrupted⟩ := by
  intro selection closeAll
  have hnumeric : (topicsAndTypes.any fun info =>
      info.name.any (· ∈ selection.messageClasses.keys) && info.messageCount.isNone) = false := by
    rw [List.any_eq_false]
    intro info hinfo
    simp [Option.isSome_iff_ne_none.mp (hcounts info hinfo)]
  unfold runAnalyzerPlugins
  dsimp only
  rw [hnumeric]
  rfl

/-- **Closing.** Whatever the plugins raise, each of them is closed once before the function is left. -/
theorem closed_once {plugins : List Plugin} (hnodup : plugins.Nodup) {topicsAndTypes : List TopicInfo}
    (hcounts : ∀ info ∈ topicsAndTypes, info.messageCount.isSome = true) {plugin : Plugin}
    (hplugin : plugin ∈ plugins) :
    closings plugin (runAnalyzerPlugins code ros topicsAndTypes plugins).calls = 1 := by
  rw [runAnalyzerPlugins_of_counts plugins hcounts]
  split_ifs
  · exact closings_closeAll hplugin hnodup []
  · rw [closings_closeAll hplugin hnodup, closings_selectTopics]
  · rw [closings_closeAll hplugin hnodup, closings_scan, closings_selectTopics]

theorem returned_of_confined (hconfined : code.Confined) (plugins : List Plugin)
    {topicsAndTypes : List TopicInfo}
    (hcounts : ∀ info ∈ topicsAndTypes, info.messageCount.isSome = true) :
    (runAnalyzerPlugins code ros topicsAndTypes plugins).returned = true := by
  rw [runAnalyzerPlugins_of_counts plugins hcounts]
  split_ifs
  · rfl
  · rfl
  · dsimp only
    rw [interrupted_scan hconfined _ rfl]
    rfl

/-! ## The run -/

theorem processed_closeAll (plugin : Plugin) (plugins : List Plugin)
    (calls : List (Plugin × PluginCall Message)) :
    processed plugin (calls ++ plugins.map fun p => (p, .close)) = processed plugin calls := by
  rw [processed_append, List.append_right_eq_self]
  unfold processed
  rw [List.filterMap_eq_nil_iff]
  intro c hc
  obtain ⟨p, -, rfl⟩ := List.mem_map.mp hc
  rfl

theorem received_of_not_selected {selection : Selection Plugin Message MessageClass} {plugin : Plugin}
    {m : String × Data} (h : m.1 ∉ selection.messageClasses.keys) :
    received ros selection plugin m = none := by
  unfold received
  rw [AList.lookup_eq_none.mpr fun hmem => h (AList.mem_keys.mp hmem)]

/-- What a plugin receives does not depend on what the reader gives on other topics. -/
theorem received_read {topicsAndTypes : List TopicInfo} {bag : List (String × Data)}
    (h : WellBehaved code ros topicsAndTypes bag)
    (selection : Selection Plugin Message MessageClass) (plugin : Plugin) :
    (ros.read selection.messageClasses.keys).filterMap (received ros selection plugin) =
      bag.filterMap (received ros selection plugin) := by
  have hselected (messages : List (String × Data)) :
      messages.filterMap (received ros selection plugin) =
        (messages.filter (·.1 ∈ selection.messageClasses.keys)).filterMap
          (received ros selection plugin) := by
    rw [List.filterMap_filter]
    apply List.filterMap_congr
    intro m _
    by_cases hm : m.1 ∈ selection.messageClasses.keys
    · simp [hm]
    · simp [hm, received_of_not_selected]
  rw [hselected, h.reads, ← hselected]

omit [DecidableEq Plugin] in
theorem exists_of_lookup {topicsAndTypes : List TopicInfo} {bag : List (String × Data)}
    (h : WellBehaved code ros topicsAndTypes bag) {plugins : List Plugin} {topicName : String}
    {type : Option String} {messageClass : MessageClass}
    (hlookup : (selectTopics code ros plugins topicsAndTypes).messageClasses.lookup topicName =
      some (type, messageClass)) :
    ∃ info ∈ topicsAndTypes, info.name = some topicName ∧
      ros.getMessage info.type = some messageClass := by
  rw [(lookup_selectTopics plugins h.types h.configures topicName).1] at hlookup
  obtain ⟨selected, hlast, hclass⟩ := Option.bind_eq_some_iff.mp hlookup
  obtain ⟨found, hfound, hpair⟩ := Option.map_eq_some_iff.mp hclass
  obtain ⟨rfl, rfl⟩ := Prod.mk.inj hpair
  obtain ⟨info, hinfo, hselected⟩ := exists_of_lastSome hlast
  unfold selectedType at hselected
  split_ifs at hselected with hboth
  obtain rfl := Option.some.inj hselected
  exact ⟨info, hinfo, hboth.1, hfound⟩

theorem processed_run {topicsAndTypes : List TopicInfo} {bag : List (String × Data)}
    (h : WellBehaved code ros topicsAndTypes bag) {plugins : List Plugin} (hnodup : plugins.Nodup)
    (plugin : Plugin) :
    processed plugin (runAnalyzerPlugins code ros topicsAndTypes plugins).calls =
      upToFailure (code.processFails plugin) []
        (bag.filterMap (received ros (selectTopics code ros plugins topicsAndTypes) plugin)) := by
  rw [runAnalyzerPlugins_of_counts plugins h.counts, h.imports, if_neg Bool.false_ne_true]
  by_cases hkeys : (selectTopics code ros plugins topicsAndTypes).messageClasses.keys = []
  · rw [if_pos hkeys, processed_closeAll, processed_selectTopics, List.filterMap_eq_nil_iff.mpr]
    · rfl
    · intro m _
      apply received_of_not_selected
      rw [hkeys]
      exact List.not_mem_nil
  · rw [if_neg hkeys, processed_closeAll, ← received_read h]
    apply processed_scan h.confined
    · exact processed_selectTopics plugin plugins topicsAndTypes
    · intro m hm type messageClass hlookup
      obtain ⟨info, hinfo, hname, hclass⟩ := exists_of_lookup h hlookup
      have hmem : m ∈ bag.filter
          (·.1 ∈ (selectTopics code ros plugins topicsAndTypes).messageClasses.keys) := by
        rw [← h.reads, List.mem_filter]
        refine ⟨hm, decide_eq_true (AList.mem_keys.mp ?_)⟩
        exact AList.lookup_isSome.mp (Option.isSome_of_eq_some hlookup)
      exact h.messages m (List.mem_filter.mp hmem).1 info hinfo hname messageClass hclass
    · intro topicName plugins' hlookup
      rw [(lookup_selectTopics plugins h.types h.configures topicName).2] at hlookup
      obtain ⟨type, -, rfl⟩ := Option.map_eq_some_iff.mp hlookup
      exact hnodup.filter _

/-- **Isolation.** On a topic list with one type for each topic, and with plugins that leave the messages as
they are and raise only what is caught, a plugin gets the messages of the bag on the topics it matches, up to
its first failure; other plugins with other code change nothing; and each plugin is closed once before the
function returns. -/
theorem plugins_isolated {topicsAndTypes : List TopicInfo} {bag : List (String × Data)}
    (h : WellBehaved code ros topicsAndTypes bag) (honeType : OneType topicsAndTypes)
    {plugins : List Plugin} (hnodup : plugins.Nodup) {plugin : Plugin} (hplugin : plugin ∈ plugins) :
    processed plugin (runAnalyzerPlugins code ros topicsAndTypes plugins).calls =
        upToFailure (code.processFails plugin) [] (messagesFor code ros topicsAndTypes bag plugin) ∧
      (∀ (code' : PluginCode Plugin Message) (plugins' : List Plugin),
        WellBehaved code' ros topicsAndTypes bag → plugins'.Nodup → plugin ∈ plugins' →
        code'.matchesTopic plugin = code.matchesTopic plugin →
        code'.processFails plugin = code.processFails plugin →
          processed plugin (runAnalyzerPlugins code' ros topicsAndTypes plugins').calls =
            processed plugin (runAnalyzerPlugins code ros topicsAndTypes plugins).calls) ∧
      (runAnalyzerPlugins code ros topicsAndTypes plugins).returned = true ∧
      ∀ p ∈ plugins, closings p (runAnalyzerPlugins code ros topicsAndTypes plugins).calls = 1 := by
  have hown {code' : PluginCode Plugin Message} {plugins' : List Plugin}
      (h' : WellBehaved code' ros topicsAndTypes bag) (hnodup' : plugins'.Nodup)
      (hplugin' : plugin ∈ plugins') :
      processed plugin (runAnalyzerPlugins code' ros topicsAndTypes plugins').calls =
        upToFailure (code'.processFails plugin) []
          (messagesFor code' ros topicsAndTypes bag plugin) := by
    rw [processed_run h' hnodup' plugin]
    unfold messagesFor
    rw [List.filterMap_filter]
    congr 1
    apply List.filterMap_congr
    intro m _
    exact received_eq honeType h'.types h'.configures hplugin' m
  refine ⟨hown h hnodup hplugin, ?_, returned_of_confined h.confined plugins h.counts,
    fun p hp => closed_once hnodup h.counts hp⟩
  intro code' plugins' h' hnodup' hplugin' hmatches hfails
  rw [hown h' hnodup' hplugin', hown h hnodup hplugin, hfails]
  unfold messagesFor matchedTopic
  rw [hmatches]

end Isolation

/-! ## Two types of one topic -/

/-- ROS 2 with a bag whose messages need no deserialization. -/
def plainRos2 (bag : List (String × Nat)) : Ros2 Nat Nat Unit where
  importFails := false
  getMessage _ := some ()
  deserializeMessage data _ := some data
  read topics := bag.filter (·.1 ∈ topics)

/-- Plugins that match one type each; the plugin for IMU messages fails on an odd message. -/
inductive TypePlugin where
  | odometry
  | imu
  deriving DecidableEq

def TypePlugin.code : PluginCode TypePlugin Nat where
  matchesTopic
    | .odometry, _, type => type = some "nav_msgs/msg/Odometry"
    | .imu, _, type => type = some "sensor_msgs/msg/Imu"
  configureFails _ _ _ := false
  process
    | .odometry, _, m => (m.2, .returned)
    | .imu, _, m => (m.2, if m.2 % 2 = 1 then .raisedException else .returned)

/-- An entry of a topic list with one message. -/
def listed (name type : String) : TopicInfo := ⟨some name, some type, some 1⟩

theorem wellBehaved_plainRos2 (topics : List (String × String)) (bag : List (String × Nat)) :
    WellBehaved TypePlugin.code (plainRos2 bag) (topics.map fun t => listed t.1 t.2) bag where
  imports := rfl
  types _ _ := rfl
  configures _ _ _ := rfl
  confined := by
    refine ⟨fun plugin _ _ => ?_, fun plugin _ m => ?_⟩
    · cases plugin <;> rfl
    · cases plugin with
      | odometry => exact nofun
      | imu =>
        show (if m.2 % 2 = 1 then _ else _) ≠ _
        split_ifs <;> exact nofun
  counts := by
    intro info hinfo
    obtain ⟨t, -, rfl⟩ := List.mem_map.mp hinfo
    rfl
  messages _ _ _ _ _ _ _ := rfl
  reads topics := by
    show (bag.filter _).filter _ = _
    rw [List.filter_filter]
    simp

/-- With two topics each plugin gets the messages of its own, the one for IMU messages up to the odd
one. -/
theorem twoTopics_isolated :
    let topics := [("/odom", "nav_msgs/msg/Odometry"), ("/imu", "sensor_msgs/msg/Imu")]
    let bag := [("/imu", 2), ("/odom", 3), ("/imu", 5), ("/imu", 4), ("/odom", 6)]
    processed .imu (runAnalyzerPlugins TypePlugin.code (plainRos2 bag)
      (topics.map fun t => listed t.1 t.2) [.odometry, .imu]).calls = [("/imu", 2), ("/imu", 5)] := by
  intro topics bag
  have honeType : OneType (topics.map fun t => listed t.1 t.2) := by
    intro info hinfo info' hinfo' topicName hname hname'
    simp only [topics, List.map_cons, List.map_nil, List.mem_cons, List.not_mem_nil, or_false]
      at hinfo hinfo'
    have hsame : info.name = info'.name := hname.trans hname'.symm
    rcases hinfo with rfl | rfl <;> rcases hinfo' with rfl | rfl
    · rfl
    · exact absurd hsame (by decide)
    · exact absurd hsame (by decide)
    · rfl
  have hisolated := plugins_isolated (wellBehaved_plainRos2 topics bag) honeType
    (show [TypePlugin.odometry, TypePlugin.imu].Nodup by decide)
    (show TypePlugin.imu ∈ [TypePlugin.odometry, TypePlugin.imu] by decide)
  rw [hisolated.1]
  decide +kernel

/-- Plugins that match every topic; the first one adds one to a message, and may raise. -/
def TypePlugin.changing (processEnd : ProcessEnd) : PluginCode TypePlugin Nat where
  matchesTopic _ _ _ := true
  configureFails _ _ _ := false
  process
    | .odometry, _, m => (m.2 + 1, processEnd)
    | .imu, _, m => (m.2, .returned)

/-- What one plugin gets depends on the other. Listed with two types, a topic brings its messages to the
plugin of the last one only; the other plugin, which matches the topic too and gets them where it is alone,
gets none. A plugin that changes a message changes it for the next one, and one that exits takes it away. -/
theorem plugins_interfere :
    let bag := [("/state", 8)]
    let twoTypes := [("/state", "nav_msgs/msg/Odometry"), ("/state", "sensor_msgs/msg/Imu")].map
      fun t => listed t.1 t.2
    let oneType := [listed "/state" "nav_msgs/msg/Odometry"]
    (WellBehaved TypePlugin.code (plainRos2 bag) twoTypes bag ∧
      messagesFor TypePlugin.code (plainRos2 bag) twoTypes bag .odometry = [("/state", 8)] ∧
      processed .odometry
        (runAnalyzerPlugins TypePlugin.code (plainRos2 bag) twoTypes [.odometry, .imu]).calls = [] ∧
      processed .odometry
        (runAnalyzerPlugins TypePlugin.code (plainRos2 bag) twoTypes [.odometry]).calls =
          [("/state", 8)]) ∧
    (processed .imu
        (runAnalyzerPlugins (TypePlugin.changing .returned) (plainRos2 bag) oneType [.odometry, .imu]).calls =
          [("/state", 9)] ∧
      runAnalyzerPlugins (TypePlugin.changing .raisedOther) (plainRos2 bag) oneType [.odometry, .imu] =
        { calls := [(.odometry, .configureTopic "/state" "nav_msgs/msg/Odometry"),
            (.imu, .configureTopic "/state" "nav_msgs/msg/Odometry"),
            (.odometry, .process "/state" 8), (.odometry, .close), (.imu, .close)]
          returned := false } ∧
      ∀ processEnd, processed .imu
        (runAnalyzerPlugins (TypePlugin.changing processEnd) (plainRos2 bag) oneType [.imu]).calls =
          [("/state", 8)]) := by
  intro bag twoTypes oneType
  refine ⟨⟨wellBehaved_plainRos2 _ bag, ?_⟩, ?_, ?_, fun processEnd => ?_⟩
  · decide +kernel
  · decide +kernel
  · decide +kernel
  · cases processEnd <;> decide +kernel

end LogAnalysis
