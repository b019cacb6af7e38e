import Mathlib.Algebra.Order.Ring.Rat
import RobotFramework.ElapsedTime
import RobotFramework.SystemMonitor.KeyEvents

/-!
# The message line of the system monitor

`MessageWindow` shows one message until its timer has counted more than ten seconds. The timer counts
what the clock advances between two updates, from the update before the message on. Times are exact.
-/

namespace SystemMonitor

open History ElapsedTime

/-! ## The code -/

/-- `Color`. -/
inductive Color where
  | unknown
  | noColor
  | redColor
  | yellowColor
  | greenColor
  | blueColor
  | whiteColor
  | purpleColor
  deriving DecidableEq, Repr

/-- The members of `BaseWindow` that a window without records uses. -/
structure BaseWindow where
  currentTimeSec : Rat
  hasWindow : Bool
  focused : Bool
  deriving DecidableEq, Repr

/-- `BaseWindow::update`. -/
def BaseWindow.update (w : BaseWindow) (currentTimeSec : Rat) : BaseWindow :=
  { w with currentTimeSec := currentTimeSec }

/-- The message window. -/
structure MessageWindow extends BaseWindow where
  timerShowingMessageInWindowSec : Rat
  messageText : String
  messageTextColor : Color
  deriving DecidableEq, Repr

namespace MessageWindow

/-- `TIME_TO_SHOW_MESSAGES`. -/
def timeToShowMessages : Rat := 10

/-- The window as constructed; nothing sets its time before the first update. -/
def initial (currentTimeSec : Rat) (hasWindow : Bool) : MessageWindow where
  currentTimeSec := currentTimeSec
  hasWindow := hasWindow
  focused := false
  timerShowingMessageInWindowSec := 0
  messageText := ""
  messageTextColor := .noColor

def color : BaseNode.Level → Color
  | .debug => .noColor
  | .info => .noColor
  | .notice => .greenColor
  | .warn => .yellowColor
  | .error => .redColor
  | .fatal => .redColor
  | .noError => .redColor
  | .unknown => .redColor

/-- `MessageWindow::setMessageText`. -/
def setMessageText (w : MessageWindow) (text : String) (level : BaseNode.Level) : MessageWindow :=
  if text = "" then w
  else
    { w with
      messageText := text
      messageTextColor := color level
      timerShowingMessageInWindowSec := 0 }

/-- `MessageWindow::new_MessageTextList`: the window, and whether the list is supported. -/
def new_MessageTextList (w : MessageWindow) : List MessageText → MessageWindow × Bool
  | [] => (w, true)
  | [message] => (w.setMessageText message.text message.level, true)
  | _ => (w, false)

/-- `MessageWindow::updateWindow`: the window, and whether it could be drawn. -/
def updateWindow (w : MessageWindow) : MessageWindow × Bool :=
  if w.hasWindow then
    if w.timerShowingMessageInWindowSec > timeToShowMessages then
      ({ w with messageText := "", messageTextColor := .noColor }, true)
    else (w, true)
  else (w, false)

/-- `MessageWindow::update`. -/
def update (w : MessageWindow) (currentTimeSec : Rat) : MessageWindow × Bool :=
  let prevTimeSec := w.currentTimeSec
  let w := { w with toBaseWindow := w.toBaseWindow.update currentTimeSec }
  let dt := w.currentTimeSec - prevTimeSec
  let w := if dt > 0 then
      { w with timerShowingMessageInWindowSec := w.timerShowingMessageInWindowSec + dt }
    else w
  w.updateWindow

/-- What happens to the window. -/
inductive Event where
  | messages (messages : List MessageText)
  | update (currentTimeSec : Rat)
  deriving DecidableEq, Repr

def step (w : MessageWindow) : Event → MessageWindow
  | .messages messages => (w.new_MessageTextList messages).1
  | .update currentTimeSec => (w.update currentTimeSec).1

/-! ## The last message -/

variable {w : MessageWindow}

def Event.shows : Event → Option MessageText
  | .messages [message] => if message.text = "" then none else some message
  | _ => none

def Event.time : Event → Option Rat
  | .update t => some t
  | .messages _ => none

def times (events : List Event) : List Rat := events.filterMap Event.time

theorem times_concat_messages (events : List Event) (messages : List MessageText) :
    times (events ++ [.messages messages]) = times events := by
  unfold times
  rw [List.filterMap_append]
  exact List.append_nil _

theorem times_concat_update (events : List Event) (t : Rat) :
    times (events ++ [.update t]) = times events ++ [t] := by
  unfold times
  rw [List.filterMap_append]
  rfl

theorem update_eq (hw : w.hasWindow = true) (t : Rat) :
    (w.update t).1 =
      let timer := w.timerShowingMessageInWindowSec + max (t - w.currentTimeSec) 0
      { currentTimeSec := t
        hasWindow := true
        focused := w.focused
        timerShowingMessageInWindowSec := timer
        messageText := if timeToShowMessages < timer then "" else w.messageText
        messageTextColor := if timeToShowMessages < timer then .noColor else w.messageTextColor } := by
  unfold update updateWindow BaseWindow.update
  dsimp only
  by_cases hdt : t - w.currentTimeSec > 0
  · rw [if_pos hdt, if_pos hw, max_eq_left hdt.le]
    split_ifs <;> simp [hw]
  · rw [if_neg hdt, if_pos hw, max_eq_right (not_lt.mp hdt), add_zero]
    split_ifs <;> simp [hw]

/-- A message that is shown starts the timer; every other list of messages changes nothing. -/
theorem messages_eq (w : MessageWindow) (messages : List MessageText) :
    (w.new_MessageTextList messages).1 =
      (Event.messages messages).shows.elim w fun message =>
        { w with
          messageText := message.text
          messageTextColor := color message.level
          timerShowingMessageInWindowSec := 0 } := by
  match messages with
  | [] => rfl
  | [message] =>
    show w.setMessageText message.text message.level =
      (if message.text = "" then none else some message : Option MessageText).elim w _
    unfold setMessageText
    by_cases htext : message.text = ""
    · rw [if_pos htext, if_pos htext]
      rfl
    · rw [if_neg htext, if_neg htext]
      rfl
  | _ :: _ :: _ => rfl

theorem hasWindow_step (w : MessageWindow) (e : Event) : (step w e).hasWindow = w.hasWindow := by
  cases e with
  | messages messages =>
    show (w.new_MessageTextList messages).1.hasWindow = w.hasWindow
    rw [messages_eq]
    cases (Event.messages messages).shows <;> rfl
  | update t =>
    show (w.update t).1.hasWindow = w.hasWindow
    unfold update updateWindow BaseWindow.update
    dsimp only
    split_ifs <;> rfl

theorem currentTimeSec_step (w : MessageWindow) (e : Event) :
    (step w e).currentTimeSec = e.time.getD w.currentTimeSec := by
  cases e with
  | messages messages =>
    show (w.new_MessageTextList messages).1.currentTimeSec = w.currentTimeSec
    rw [messages_eq]
    cases (Event.messages messages).shows <;> rfl
  | update t =>
    show (w.update t).1.currentTimeSec = t
    unfold update updateWindow BaseWindow.update
    dsimp only
    split_ifs <;> rfl

theorem focused_step (w : MessageWindow) (e : Event) : (step w e).focused = w.focused := by
  cases e with
  | messages messages =>
    show (w.new_MessageTextList messages).1.focused = w.focused
    rw [messages_eq]
    cases (Event.messages messages).shows <;> rfl
  | update t =>
    show (w.update t).1.focused = w.focused
    unfold update updateWindow BaseWindow.update
    dsimp only
    split_ifs <;> rfl

theorem hasWindow_run (w : MessageWindow) (events : List Event) :
    (run step w events).hasWindow = w.hasWindow := by
  refine run_invariant (I := fun _ (v : MessageWindow) => v.hasWindow = w.hasWindow) rfl ?_ events
  intro past v e h
  rw [hasWindow_step, h]

theorem currentTimeSec_run (w : MessageWindow) (events : List Event) :
    (run step w events).currentTimeSec = reading w.currentTimeSec (times events) := by
  induction events using List.reverseRecOn with
  | nil => rfl
  | append_singleton events e ih =>
    rw [run_concat, currentTimeSec_step, ih]
    cases e with
    | messages messages =>
      rw [times_concat_messages]
      rfl
    | update t =>
      rw [times_concat_update, reading_concat]
      rfl

theorem quiet_run (hw : w.hasWindow = true) (htimer : w.timerShowingMessageInWindowSec = 0)
    (after : List Event) (hafter : ∀ e ∈ after, e.shows = none) :
    let counted := elapsed w.currentTimeSec (times after)
    (run step w after).timerShowingMessageInWindowSec = counted ∧
      (run step w after).messageText = (if timeToShowMessages < counted then "" else w.messageText) ∧
      (run step w after).messageTextColor =
        if timeToShowMessages < counted then .noColor else w.messageTextColor := by
  dsimp only
  induction after using List.reverseRecOn with
  | nil =>
    have hshort : ¬ timeToShowMessages < elapsed w.currentTimeSec (times []) :=
      show ¬ (10 : Rat) < 0 by decide
    rw [if_neg hshort, if_neg hshort]
    exact ⟨htimer, rfl, rfl⟩
  | append_singleton after e ih =>
    obtain ⟨hbefore, he⟩ := List.forall_mem_append.mp hafter
    obtain ⟨htimer', htext, hcolor⟩ := ih hbefore
    have hnone : e.shows = none := he e (List.mem_singleton_self e)
    rw [run_concat]
    cases e with
    | messages messages =>
      have hsame : step (run step w after) (.messages messages) = run step w after := by
        show (new_MessageTextList _ messages).1 = _
        rw [messages_eq, hnone]
        rfl
      rw [hsame, times_concat_messages]
      exact ⟨htimer', htext, hcolor⟩
    | update t =>
      have hgrows : elapsed w.currentTimeSec (times after) ≤
          elapsed w.currentTimeSec (times after ++ [t]) := by
        rw [elapsed_concat]
        exact le_add_of_nonneg_right (le_max_right _ 0)
      rw [show step (run step w after) (.update t) = (update (run step w after) t).1 from rfl,
        update_eq ((hasWindow_run w after).trans hw),
        times_concat_update, currentTimeSec_run, htimer', htext, hcolor,
        ← elapsed_concat]
      refine ⟨rfl, ?_, ?_⟩
      · dsimp only
        split_ifs with hlate hearly
        · rfl
        · exact absurd (lt_of_lt_of_le hearly hgrows) hlate
        · rfl
      · dsimp only
        split_ifs with hlate hearly
        · rfl
        · exact absurd (lt_of_lt_of_le hearly hgrows) hlate
        · rfl

end MessageWindow

end SystemMonitor
