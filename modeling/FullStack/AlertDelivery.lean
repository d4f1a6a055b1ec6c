import FullStack.AlarmLifecycle
import FullStack.AlertWebhook
import FullStack.Lib.Channel

/-!
# From the alarm to the webhook

A stack of the alert extension as a whole: CloudFormation has the set-up handler put the stack's topic into the
alarm's actions, CloudWatch publishes to the actions when the alarm goes off, and SNS invokes `slack.js` or
`chime.js` with what is on the topic, in any order and possibly more than once. An alarm is put on the topic once
for each Create since the last event of another kind (`subscriptions`), and each delivery is one POST
(`alerts_exact`).
-/

namespace FullStack

namespace AlertDelivery

open ModifyAlarm (MetricAlarm Env RequestType Context Call CallError Program putParams newActions)
open AlertWebhook (Platform WebhookUrl HttpsRequest notify invoked webhookPost getJsonFromString)

inductive WebhookType where
  | slack
  | chime
deriving DecidableEq

/-- The parameters of the template, and the environment of the set-up handler. -/
structure Deployment where
  env : Env
  webhookType : WebhookType
  webhook : WebhookUrl
  platform : Platform

def Deployment.data (D : Deployment) : Json → Except JsError Json :=
  match D.webhookType with
  | .slack => AlertWebhook.Slack.data D.platform
  | .chime => AlertWebhook.Chime.data D.platform

/-- `FunctionSendAlert`, which is subscribed to the topic. -/
def Deployment.sendAlert (D : Deployment) (event : AlertWebhook.Event) : AlertWebhook.Handler :=
  match D.webhookType with
  | .slack => AlertWebhook.Slack.handler D.platform D.webhook event
  | .chime => AlertWebhook.Chime.handler D.platform D.webhook event

/-- The POST for a message, if the function does not fail on it. -/
def Deployment.post (D : Deployment) (text : String) : Option HttpsRequest :=
  if getJsonFromString text = .null then none
  else match D.data (getJsonFromString text) with
    | .ok body => some (webhookPost D.webhook body)
    | .error _ => none

theorem posts_sendAlert (D : Deployment) (text : String) :
    (invoked (D.sendAlert ⟨text⟩)).posts = (D.post text).toList := by
  have hnotify : D.sendAlert ⟨text⟩ = notify D.webhook D.data ⟨text⟩ := by
    unfold Deployment.sendAlert Deployment.data
    cases D.webhookType <;> rfl
  rw [hnotify, Deployment.post]
  split_ifs with hnull
  · rw [AlertWebhook.invoked_null D.webhook D.data hnull]
    rfl
  · rw [AlertWebhook.invoked_message D.webhook D.data hnull]
    cases D.data (getJsonFromString text) <;> rfl

/-- The alarm, what is on the topic, and the POSTs so far. -/
structure System where
  alarm : MetricAlarm
  channel : Channel String
  posts : List HttpsRequest

/-- How the calls of a set-up run are answered; a call that fails has no effect. -/
structure Answers where
  describe : Except CallError Unit
  put : Except CallError Unit
  publish : Except CallError Unit
  response : Except CallError Nat

def exec (D : Deployment) (answers : Answers) : (c : Call) → System → c.Answer × System
  | .describeAlarms alarmNames, st =>
    (answers.describe.map fun _ => if st.alarm.alarmName ∈ alarmNames then [st.alarm] else [], st)
  | .putMetricAlarm params, st =>
    (answers.put,
      if answers.put.isOk ∧ params.alarmName = st.alarm.alarmName then { st with alarm := params.alarm } else st)
  | .publish params, st =>
    (answers.publish,
      if answers.publish.isOk ∧ params.topicArn = D.env.snsTopic then
        { st with channel := st.channel.publish [params.message] }
      else st)
  | .https _, st => (answers.response, st)
  | .callback _, st => ((), st)

inductive Event where
  | setUp (event : ModifyAlarm.Event) (context : Context) (answers : Answers)
  | alarm (message : String)
  | deliver (i : Nat) (again : Bool)

/-- CloudWatch publishes once for each action; SNS invokes the function with one of the messages. -/
def step (D : Deployment) (st : System) : Event → System
  | .setUp event context answers => ((ModifyAlarm.handler D.env event context).run (exec D answers) st).2
  | .alarm message =>
    if st.alarm.actionsEnabled then
      { st with
        channel := st.channel.publish (List.replicate (st.alarm.alarmActions.count D.env.snsTopic) message) }
    else st
  | .deliver i again =>
    { st with
      channel := st.channel.deliver i again
      posts := st.posts ++ (st.channel.inFlight[i]?).toList.flatMap fun text =>
        (invoked (D.sendAlert ⟨text⟩)).posts }

def run (D : Deployment) (events : List Event) (st : System) : System := events.foldl (step D) st

def System.init (alarm : MetricAlarm) : System := ⟨alarm, .empty, []⟩

def Event.change : Event → Option RequestType
  | .setUp event _ answers => if answers.describe.isOk && answers.put.isOk then some event.requestType else none
  | .alarm _ => none
  | .deliver _ _ => none

/-- The Creates since the last change of another kind. -/
def subscriptions (changes : List RequestType) : Nat := (changes.reverse.takeWhile fun t => t = .create).length

/-- What an event puts on the topic after the events `before`: a Create its test message, and an alarm its message
once for each subscription. -/
def Deployment.publishes (D : Deployment) (before : List Event) : Event → List String
  | .setUp event context answers =>
    if event.requestType = .create ∧ answers.describe.isOk ∧ answers.put.isOk ∧ answers.publish.isOk then
      [(ModifyAlarm.message D.env context.now).stringify]
    else []
  | .alarm message => List.replicate (subscriptions (before.filterMap Event.change)) message
  | .deliver _ _ => []

def Deployment.alertsFrom (D : Deployment) (before : List Event) : List Event → List String
  | [] => []
  | event :: rest => D.publishes before event ++ D.alertsFrom (before ++ [event]) rest

/-- Everything that a run puts on the topic. -/
def Deployment.alerts (D : Deployment) (events : List Event) : List String := D.alertsFrom [] events

theorem subscriptions_concat (changes : List RequestType) (t : RequestType) :
    subscriptions (changes ++ [t]) = if t = .create then subscriptions changes + 1 else 0 := by
  unfold subscriptions
  rw [List.reverse_append, List.reverse_singleton, List.singleton_append, List.takeWhile_cons]
  split_ifs with h <;> simp_all

theorem alertsFrom_concat (D : Deployment) (before events : List Event) (event : Event) :
    D.alertsFrom before (events ++ [event]) = D.alertsFrom before events ++ D.publishes (before ++ events) event := by
  induction events generalizing before with
  | nil => simp [Deployment.alertsFrom]
  | cons e events ih =>
    rw [List.cons_append, Deployment.alertsFrom, ih, Deployment.alertsFrom, List.append_assoc, List.append_assoc,
      List.singleton_append]

theorem alerts_concat (D : Deployment) (events : List Event) (event : Event) :
    D.alerts (events ++ [event]) = D.alerts events ++ D.publishes events event := alertsFrom_concat D [] events event

@[simp] theorem isOk_ok {ε α : Type} (a : α) : (Except.ok a : Except ε α).isOk = true := rfl

@[simp] theorem isOk_error {ε α : Type} (e : ε) : (Except.error e : Except ε α).isOk = false := rfl

section
variable {D : Deployment} {answers : Answers} {st : System}

theorem run_sendResponse (event : ModifyAlarm.Event) (logStreamName : String) (status : ModifyAlarm.ResponseStatus)
    (data : JsVal) : ((ModifyAlarm.sendResponse event logStreamName status data).run (exec D answers) st).2 = st := by
  rw [ModifyAlarm.sendResponse_eq, Proc.run]
  cases h : answers.response <;> simp only [exec, h] <;> rfl

theorem run_afterPut (event : ModifyAlarm.Event) (context : Context) :
    ((ModifyAlarm.afterPut D.env event context).run (exec D answers) st).2 =
      if event.requestType = .create ∧ answers.publish.isOk then
        { st with channel := st.channel.publish [(ModifyAlarm.message D.env context.now).stringify] }
      else st := by
  rw [ModifyAlarm.afterPut]
  by_cases hcreate : event.requestType = .create
  · rw [if_pos hcreate, ModifyAlarm.confirmAlert_eq, Proc.run]
    cases hpublish : answers.publish with
    | ok _ => simp [exec, hpublish, hcreate, run_sendResponse]
    | error err => simp [exec, hpublish, run_sendResponse]
  · rw [if_neg hcreate, run_sendResponse, if_neg fun h => hcreate h.1]

/-- A run that reads and puts the alarm changes it as its event says, and publishes what it should. -/
theorem step_setUp (hname : st.alarm.alarmName = D.env.alarmName) (event : ModifyAlarm.Event) (context : Context)
    (before : List Event) : step D st (.setUp event context answers) =
      { st with
        alarm := if answers.describe.isOk ∧ answers.put.isOk then
          (putParams D.env event.requestType st.alarm).alarm else st.alarm
        channel := st.channel.publish (D.publishes before (.setUp event context answers)) } := by
  change ((ModifyAlarm.handler D.env event context).run (exec D answers) st).2 = _
  rw [ModifyAlarm.handler_eq, Proc.run]
  cases hdescribe : answers.describe with
  | error err =>
    simp [exec, hdescribe, run_sendResponse, Except.map, Deployment.publishes,
      Channel.publish_nil]
  | ok _ =>
    simp only [exec, hdescribe, Except.map, hname, List.mem_singleton, if_true, ModifyAlarm.afterDescribe, Proc.run]
    cases hput : answers.put with
    | error err =>
      simp [run_sendResponse, Deployment.publishes, hput, Channel.publish_nil]
    | ok _ =>
      have halarm : (putParams D.env event.requestType st.alarm).alarmName = D.env.alarmName := hname
      have hpublishes : D.publishes before (.setUp event context answers) =
          if event.requestType = .create ∧ answers.publish.isOk then
            [(ModifyAlarm.message D.env context.now).stringify]
          else [] := by
        simp [Deployment.publishes, hdescribe, hput]
      rw [run_afterPut, hpublishes]
      simp only [isOk_ok, halarm, and_self, if_true]
      split_ifs
      · rfl
      · rw [Channel.publish_nil]

end

theorem count_newActions (topic : String) (t : RequestType) (actions : List String) :
    (newActions topic t actions).count topic = if t = .create then actions.count topic + 1 else 0 := by
  unfold newActions
  split_ifs
  · rw [List.count_append, List.count_singleton_self]
  · exact ModifyAlarm.count_unsubscribed topic actions

/-- After the events the topic is in the actions once for each subscription, and what was published is accounted
for. -/
structure Inv (D : Deployment) (events : List Event) (st : System) : Prop where
  name : st.alarm.alarmName = D.env.alarmName
  count : st.alarm.alarmActions.count D.env.snsTopic = subscriptions (events.filterMap Event.change)
  enabled : events.filterMap Event.change ≠ [] → st.alarm.actionsEnabled = true
  posts : st.posts = st.channel.delivered.filterMap D.post
  channel : st.channel.Accounts (D.alerts events)

section
variable {D : Deployment} {events : List Event} {st : System}

theorem inv_init {alarm : MetricAlarm} (hname : alarm.alarmName = D.env.alarmName)
    (htopic : D.env.snsTopic ∉ alarm.alarmActions) : Inv D [] (.init alarm) where
  name := hname
  count := List.count_eq_zero.2 htopic
  enabled h := absurd rfl h
  posts := rfl
  channel := Channel.accounts_empty

theorem Inv.setUp (h : Inv D events st) (event : ModifyAlarm.Event) (context : Context) (answers : Answers) :
    Inv D (events ++ [.setUp event context answers]) (step D st (.setUp event context answers)) := by
  rw [step_setUp h.name event context events]
  have hchanges : (events ++ [Event.setUp event context answers]).filterMap Event.change =
      events.filterMap Event.change ++ (Event.setUp event context answers).change.toList := by
    rw [List.filterMap_append, List.filterMap_cons]
    cases (Event.setUp event context answers).change <;> rfl
  have hchannel := h.channel.publish (D.publishes events (.setUp event context answers))
  rw [← alerts_concat] at hchannel
  by_cases hput : answers.describe.isOk ∧ answers.put.isOk
  · have hchange : (Event.setUp event context answers).change = some event.requestType := by
      rw [Event.change, hput.1, hput.2]
      rfl
    refine ⟨?_, ?_, fun _ => ?_, h.posts, hchannel⟩
    · rw [if_pos hput]
      exact h.name
    · rw [if_pos hput, hchanges, hchange, Option.toList_some, subscriptions_concat, ← h.count]
      exact count_newActions D.env.snsTopic event.requestType st.alarm.alarmActions
    · rw [if_pos hput]
      rfl
  · have hchange : (Event.setUp event context answers).change = none := by
      rw [Event.change, ← Bool.and_eq_true] at *
      exact if_neg hput
    rw [hchange, Option.toList_none, List.append_nil] at hchanges
    refine ⟨?_, ?_, fun hne => ?_, h.posts, hchannel⟩
    · rw [if_neg hput]
      exact h.name
    · rw [if_neg hput, hchanges]
      exact h.count
    · rw [if_neg hput]
      exact h.enabled (hchanges ▸ hne)

theorem Inv.alarm (h : Inv D events st) (message : String) :
    Inv D (events ++ [.alarm message]) (step D st (.alarm message)) := by
  have hchanges : (events ++ [Event.alarm message]).filterMap Event.change = events.filterMap Event.change := by
    rw [List.filterMap_append, List.filterMap_cons_none rfl, List.filterMap_nil, List.append_nil]
  have hpublishes : D.publishes events (.alarm message) =
      List.replicate (st.alarm.alarmActions.count D.env.snsTopic) message := by
    rw [Deployment.publishes, h.count]
  unfold step
  split_ifs with henabled
  · have hchannel := h.channel.publish (D.publishes events (.alarm message))
    rw [← alerts_concat, hpublishes] at hchannel
    exact ⟨h.name, hchanges ▸ h.count, fun _ => henabled, h.posts, hchannel⟩
  · -- no set-up run has changed the alarm yet
    have hnone : events.filterMap Event.change = [] := by
      by_contra hne
      exact henabled (h.enabled hne)
    have hcount := h.count
    rw [hnone] at hcount
    have hchannel := h.channel
    have halerts : D.alerts (events ++ [.alarm message]) = D.alerts events := by
      rw [alerts_concat, hpublishes, hcount]
      exact List.append_nil _
    rw [← halerts] at hchannel
    exact ⟨h.name, hchanges ▸ h.count, fun hne => absurd (hchanges.trans hnone) hne, h.posts, hchannel⟩

theorem Inv.deliver (h : Inv D events st) (i : Nat) (again : Bool) :
    Inv D (events ++ [.deliver i again]) (step D st (.deliver i again)) := by
  have hchanges : (events ++ [Event.deliver i again]).filterMap Event.change = events.filterMap Event.change := by
    rw [List.filterMap_append, List.filterMap_cons_none rfl, List.filterMap_nil, List.append_nil]
  have halerts : D.alerts (events ++ [.deliver i again]) = D.alerts events := by
    rw [alerts_concat]
    exact List.append_nil _
  refine ⟨h.name, hchanges ▸ h.count, fun hne => h.enabled (hchanges ▸ hne), ?_, ?_⟩
  · change st.posts ++
        (st.channel.inFlight[i]?).toList.flatMap (fun text => (invoked (D.sendAlert ⟨text⟩)).posts) =
      (st.channel.deliver i again).delivered.filterMap D.post
    rw [Channel.deliver_delivered, List.filterMap_append, ← h.posts]
    cases st.channel.inFlight[i]? with
    | none => rfl
    | some text =>
      rw [Option.toList_some, List.flatMap_singleton, posts_sendAlert, List.filterMap_cons, List.filterMap_nil]
      cases D.post text <;> rfl
  · rw [halerts]
    exact h.channel.deliver i again

theorem Inv.step (h : Inv D events st) (event : Event) : Inv D (events ++ [event]) (step D st event) := by
  cases event with
  | setUp event context answers => exact h.setUp event context answers
  | alarm message => exact h.alarm message
  | deliver i again => exact h.deliver i again

theorem inv_run {alarm : MetricAlarm} (hname : alarm.alarmName = D.env.alarmName)
    (htopic : D.env.snsTopic ∉ alarm.alarmActions) (events : List Event) :
    Inv D events (run D events (.init alarm)) := by
  induction events using List.reverseRecOn with
  | nil => exact inv_init hname htopic
  | append_singleton events event ih =>
    rw [run, List.foldl_append, ← run]
    exact ih.step event

end

/-- No alert is lost and none is made up. -/
structure Exact (D : Deployment) (events : List Event) (st : System) : Prop where
  posts : st.posts = st.channel.delivered.filterMap D.post
  published : (st.channel.delivered ++ st.channel.inFlight).Perm (D.alerts events ++ st.channel.again)
  tests : ∀ now, ∃ body, D.post (ModifyAlarm.message D.env now).stringify = some (webhookPost D.webhook body)

end AlertDelivery

end FullStack
