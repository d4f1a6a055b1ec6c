import FullStack.AlarmLifecycle

/-!
# The status that the set-up handler reports

Any of the calls for an event may fail, and then has no effect. The handler reads the alarm, puts it
back and, for a Create, publishes a test message, and reports FAILED after the first call that fails; it
takes nothing back (`handled_cases`). So the status is truthful exactly when a Create whose put has
succeeded also publishes its test message (`truthful_iff`).
-/

namespace FullStack

namespace ModifyAlarm

/-- The outcomes of the calls that an event leads to. -/
structure Outcomes where
  describeAlarms : Except CallError Unit
  putMetricAlarm : Except CallError Unit
  publish : Except CallError Unit
  https : Except CallError Nat

/-- The alarm, and the responses that CloudFormation has been sent. -/
structure Handled where
  alarm : MetricAlarm
  responses : List HttpsRequest

/-- The calls on one alarm: one that fails leaves the alarm alone. -/
def execOutcomes (o : Outcomes) : (c : Call) → Handled → c.Answer × Handled
  | .describeAlarms alarmNames, s =>
    (o.describeAlarms.map fun _ => if s.alarm.alarmName ∈ alarmNames then [s.alarm] else [], s)
  | .putMetricAlarm params, s =>
    (o.putMetricAlarm,
      if o.putMetricAlarm.isOk ∧ params.alarmName = s.alarm.alarmName then { s with alarm := params.alarm } else s)
  | .publish _, s => (o.publish, s)
  | .https request, s => (o.https, { s with responses := s.responses ++ [request] })
  | .callback _, s => ((), s)

def handled (env : Env) (event : Event) (context : Context) (o : Outcomes) (alarm : MetricAlarm) : Handled :=
  ((handler env event context).run (execOutcomes o) ⟨alarm, []⟩).2

def HttpsRequest.status (r : HttpsRequest) : Option Json := (Json.parse r.body).bind (Json.member "Status")

def Handled.Reports (s : Handled) (status : ResponseStatus) : Prop :=
  ∃ r ∈ s.responses, r.status = some (.str status.text)

/-- FAILED means that the alarm is as it was before; SUCCESS, that the topic is where it belongs. -/
structure Truthful (env : Env) (requestType : RequestType) (before : MetricAlarm) (s : Handled) : Prop where
  failed : s.Reports .failed → s.alarm = before
  created : s.Reports .success → requestType = .create → env.snsTopic ∈ s.alarm.alarmActions
  deleted : s.Reports .success → requestType = .delete → env.snsTopic ∉ s.alarm.alarmActions

theorem status_responsePut (event : Event) (logStreamName : String) (status : ResponseStatus) (data : JsVal) :
    (responsePut event (responseBody event logStreamName status data)).status = some (.str status.text) := by
  unfold HttpsRequest.status responsePut responseBody
  rw [Json.parse_stringify]
  cases data <;> simp [definedMembers, Json.member, Json.lookup]

/-- The handler ended with one response of this status, and left the alarm as `alarm`. -/
def Handled.Ended (s : Handled) (status : ResponseStatus) (alarm : MetricAlarm) : Prop :=
  s.alarm = alarm ∧ ∃ event logStreamName data,
    s.responses = [responsePut event (responseBody event logStreamName status data)]

theorem Handled.Ended.reports_iff {s : Handled} {status : ResponseStatus} {alarm : MetricAlarm}
    (h : s.Ended status alarm) (status' : ResponseStatus) : s.Reports status' ↔ status' = status := by
  obtain ⟨-, event, logStreamName, data, hr⟩ := h
  simp only [Reports, hr, List.mem_singleton, exists_eq_left, status_responsePut]
  cases status <;> cases status' <;> simp [ResponseStatus.text]

section
variable (o : Outcomes) (env : Env) (event : Event) (context : Context)

theorem sendResponse_ended (status : ResponseStatus) (data : JsVal) (alarm : MetricAlarm) :
    ((sendResponse event context.logStreamName status data).run (execOutcomes o) ⟨alarm, []⟩).2.Ended
      status alarm := by
  rw [sendResponse_eq, Proc.run]
  simp only [execOutcomes, List.nil_append]
  cases o.https <;> exact ⟨rfl, event, context.logStreamName, data, rfl⟩

theorem afterPut_ended (alarm : MetricAlarm) :
    ((afterPut env event context).run (execOutcomes o) ⟨alarm, []⟩).2.Ended
      (if event.requestType = .create ∧ o.publish.isOk = false then .failed else .success) alarm := by
  unfold afterPut
  by_cases hc : event.requestType = .create
  · rw [if_pos hc, confirmAlert_eq, Proc.run]
    simp only [execOutcomes, hc, true_and]
    cases o.publish with
    | ok _ => exact sendResponse_ended o event context .success none alarm
    | error err => exact sendResponse_ended o event context .failed _ alarm
  · simp only [hc, false_and, if_false]
    exact sendResponse_ended o event context .success none alarm

/-- An event ends with FAILED before anything is put, or with the put alarm and then with FAILED only if
it is a Create whose test message is not published. -/
theorem handled_cases {alarm : MetricAlarm} (hname : alarm.alarmName = env.alarmName) :
    ((o.describeAlarms.isOk = false ∨ o.putMetricAlarm.isOk = false) ∧
      (handled env event context o alarm).Ended .failed alarm) ∨
    ((o.describeAlarms.isOk = true ∧ o.putMetricAlarm.isOk = true) ∧
      (handled env event context o alarm).Ended
        (if event.requestType = .create ∧ o.publish.isOk = false then .failed else .success)
        (putParams env event.requestType alarm).alarm) := by
  unfold handled
  rw [handler_eq, Proc.run]
  simp only [execOutcomes]
  cases hd : o.describeAlarms with
  | error err => exact .inl ⟨.inl rfl, sendResponse_ended o event context .failed _ alarm⟩
  | ok _ =>
    simp only [Except.map, hname, List.mem_singleton, if_true, afterDescribe, Proc.run, execOutcomes]
    cases hp : o.putMetricAlarm with
    | error err =>
      rw [if_neg (by simp [Except.isOk, Except.toBool])]
      exact .inl ⟨.inr rfl, sendResponse_ended o event context .failed _ alarm⟩
    | ok _ =>
      have hput : (putParams env event.requestType alarm).alarmName = env.alarmName := hname
      rw [if_pos ⟨rfl, hput⟩]
      exact .inr ⟨⟨rfl, rfl⟩, afterPut_ended o env event context _⟩

end

theorem putParams_create_ne (env : Env) (alarm : MetricAlarm) : (putParams env .create alarm).alarm ≠ alarm := by
  intro h
  have hactions : alarm.alarmActions ++ [env.snsTopic] = alarm.alarmActions := congrArg MetricAlarm.alarmActions h
  simp at hactions

section
variable {o : Outcomes} {env : Env} {event : Event} {context : Context} {alarm : MetricAlarm}

theorem Handled.Ended.truthful_failed {s : Handled} {requestType : RequestType} (h : s.Ended .failed alarm) :
    Truthful env requestType alarm s := by
  have hnot : ¬ s.Reports .success := fun hs => absurd ((h.reports_iff _).1 hs) (by decide)
  exact ⟨fun _ => h.1, fun hs => absurd hs hnot, fun hs => absurd hs hnot⟩

theorem Handled.Ended.truthful_success {s : Handled} {requestType : RequestType}
    (h : s.Ended .success (putParams env requestType alarm).alarm) : Truthful env requestType alarm s := by
  have hactions : s.alarm.alarmActions = newActions env.snsTopic requestType alarm.alarmActions := congrArg _ h.1
  refine ⟨fun hf => absurd ((h.reports_iff _).1 hf) (by decide), fun _ hc => ?_, fun _ hdel => ?_⟩
  · simp [hactions, newActions, hc]
  · simp [hactions, newActions, hdel]

theorem not_truthful_of_unpublished (hname : alarm.alarmName = env.alarmName) (hc : event.requestType = .create)
    (hd : o.describeAlarms.isOk = true) (hp : o.putMetricAlarm.isOk = true) (hpub : o.publish.isOk = false) :
    ¬ Truthful env event.requestType alarm (handled env event context o alarm) := by
  intro h
  rcases handled_cases o env event context hname with ⟨hfail, -⟩ | ⟨-, hend⟩
  · simp [hd, hp] at hfail
  · rw [if_pos ⟨hc, hpub⟩, hc] at hend
    have hsame := h.failed ((hend.reports_iff _).2 rfl)
    rw [hend.1] at hsame
    exact putParams_create_ne env alarm hsame

/-- The status is truthful exactly when a Create that has put the alarm also publishes its test message. -/
theorem truthful_iff (hname : alarm.alarmName = env.alarmName) :
    Truthful env event.requestType alarm (handled env event context o alarm) ↔
      (event.requestType = .create → o.describeAlarms.isOk = true → o.putMetricAlarm.isOk = true →
        o.publish.isOk = true) := by
  constructor
  · intro h hc hd hp
    by_contra hpub
    exact not_truthful_of_unpublished hname hc hd hp (Bool.eq_false_iff.2 hpub) h
  · intro h
    rcases handled_cases o env event context hname with ⟨-, hend⟩ | ⟨⟨hd, hp⟩, hend⟩
    · exact hend.truthful_failed
    · have hpublished : ¬ (event.requestType = .create ∧ o.publish.isOk = false) := by
        rintro ⟨hc, hpub⟩
        rw [h hc hd hp] at hpub
        exact Bool.false_ne_true hpub.symm
      rw [if_neg hpublished] at hend
      exact hend.truthful_success

end

def createEvent : Event := ⟨.create, ⟨"cloudformation", "/response"⟩, "stack", "request", "resource"⟩

theorem plain_create_truthful : Truthful ⟨"alarm", "topic", "us-east-1"⟩ createEvent.requestType plainAlarm
    (handled ⟨"alarm", "topic", "us-east-1"⟩ createEvent ⟨"log", "now"⟩ ⟨.ok (), .ok (), .ok (), .ok 200⟩
      plainAlarm) :=
  (truthful_iff rfl).2 fun _ _ _ => rfl

/-- The handler may not publish to the topic: the stack is told that its Create has failed, and the alarm
keeps the topic. -/
theorem unpublished_create_not_truthful :
    ¬ Truthful ⟨"alarm", "topic", "us-east-1"⟩ createEvent.requestType plainAlarm
      (handled ⟨"alarm", "topic", "us-east-1"⟩ createEvent ⟨"log", "now"⟩
        ⟨.ok (), .ok (), .error ⟨"AuthorizationError", "not authorized to perform: SNS:Publish"⟩, .ok 200⟩
        plainAlarm) :=
  not_truthful_of_unpublished rfl rfl rfl rfl rfl

end ModifyAlarm

end FullStack
