import FullStack.Alarm

/-!
# The answer to CloudFormation

Whatever the calls of the set-up handler are answered with, each end of its promise chains sends one
response (`sendResponse_requests`), but for one: an alarm that does not exist ends the chain without
any. So CloudFormation gets exactly one answer exactly when the alarm can be read and exists, or the
read fails (`answeredOnce_iff`).
-/

namespace FullStack

namespace ModifyAlarm

def logCall (answers : (c : Call) → c.Answer) (c : Call) (log : List Call) : c.Answer × List Call :=
  (answers c, log ++ [c])

def Call.request? : Call → Option HttpsRequest
  | .https request => some request
  | _ => none

def requests (answers : (c : Call) → c.Answer) (p : Program Unit) : List HttpsRequest :=
  ((p.run (logCall answers) []).2).filterMap Call.request?

structure IsResponse (event : Event) (r : HttpsRequest) : Prop where
  method : r.method = "PUT"
  hostname : r.hostname = event.responseURL.hostname
  path : r.path = event.responseURL.path

def AnsweredOnce (event : Event) (rs : List HttpsRequest) : Prop := ∃ r, rs = [r] ∧ IsResponse event r

section
variable (answers : (c : Call) → c.Answer)

theorem log_append (p : Program Unit) (log : List Call) :
    (p.run (logCall answers) log).2 = log ++ (p.run (logCall answers) []).2 := by
  induction p generalizing log with
  | ret a => simp [Proc.run]
  | call c k ih =>
    simp only [Proc.run, logCall, List.nil_append]
    rw [ih, ih _ [c], List.append_assoc]

theorem requests_call (c : Call) (k : c.Answer → Program Unit) :
    requests answers (.call c k) = c.request?.toList ++ requests answers (k (answers c)) := by
  rw [requests, requests, Proc.run, logCall, List.nil_append, log_append, List.filterMap_append]
  cases h : c.request? <;> simp [h]

theorem sendResponse_requests (event : Event) (logStreamName : String) (status : ResponseStatus) (data : JsVal) :
    requests answers (sendResponse event logStreamName status data) =
      [responsePut event (responseBody event logStreamName status data)] := by
  rw [sendResponse_eq, requests_call]
  cases answers (.https (responsePut event (responseBody event logStreamName status data))) <;> rfl

theorem afterPut_requests (env : Env) (event : Event) (context : Context) :
    ∃ body, requests answers (afterPut env event context) = [responsePut event body] := by
  rw [afterPut]
  split_ifs
  · rw [confirmAlert_eq, requests_call]
    cases answers (.publish ⟨(message env context.now).stringify, env.snsTopic⟩) with
    | ok _ => exact ⟨_, sendResponse_requests answers ..⟩
    | error err => exact ⟨_, sendResponse_requests answers ..⟩
  · exact ⟨_, sendResponse_requests answers ..⟩

theorem afterDescribe_requests (env : Env) (event : Event) (context : Context) (origAlarm : MetricAlarm)
    (rest : List MetricAlarm) :
    ∃ body, requests answers (afterDescribe env event context (origAlarm :: rest)) = [responsePut event body] := by
  rw [afterDescribe, requests_call]
  cases answers (.putMetricAlarm (putParams env event.requestType origAlarm)) with
  | ok _ => exact afterPut_requests answers env event context
  | error err => exact ⟨_, sendResponse_requests answers ..⟩

theorem answeredOnce_of_responsePut {event : Event} {rs : List HttpsRequest}
    (h : ∃ body, rs = [responsePut event body]) : AnsweredOnce event rs := by
  obtain ⟨body, rfl⟩ := h
  exact ⟨_, rfl, rfl, rfl, rfl⟩

/-- CloudFormation gets exactly one answer exactly when the read fails or finds an alarm. -/
theorem answeredOnce_iff (env : Env) (event : Event) (context : Context) :
    AnsweredOnce event (requests answers (handler env event context)) ↔
      answers (.describeAlarms [env.alarmName]) ≠ .ok [] := by
  rw [handler_eq, requests_call]
  cases answers (.describeAlarms [env.alarmName]) with
  | error err =>
    exact iff_of_true (answeredOnce_of_responsePut ⟨_, sendResponse_requests answers ..⟩) (fun h => by cases h)
  | ok data =>
    cases data with
    | nil =>
      -- the chain ends without a response
      refine iff_of_false ?_ (fun h => h rfl)
      rintro ⟨r, hr, -⟩
      cases hr
    | cons origAlarm rest =>
      exact iff_of_true (answeredOnce_of_responsePut (afterDescribe_requests answers env event context origAlarm rest))
        (fun h => by cases h)

end

def noAlarm : (c : Call) → c.Answer
  | .describeAlarms _ => .ok []
  | .putMetricAlarm _ => .ok ()
  | .publish _ => .ok ()
  | .https _ => .ok 200
  | .callback _ => ()

/-- A stack created for an alarm that does not exist waits for its answer until it times out. -/
theorem noAlarm_not_answeredOnce :
    let event : Event := ⟨.create, ⟨"cloudformation", "/response"⟩, "stack", "request", "resource"⟩
    ¬ AnsweredOnce event (requests noAlarm (handler ⟨"alarm", "topic", "us-east-1"⟩ event ⟨"log", "now"⟩)) := by
  rintro event ⟨r, hr, -⟩
  cases hr

end ModifyAlarm

end FullStack
