import FullStack.Js

/-!
# The alarm set-up handler

`modifyAlarm.js` answers the custom-resource events of the alert extension: it reads the alarm, puts it
back with the stack's topic added (Create) or filtered out (every other event), and sends CloudFormation
a response. `handler_eq` is the handler without its promise chains.
-/

namespace FullStack

namespace ModifyAlarm

/-- The configuration of a metric alarm: what PutMetricAlarm accepts and DescribeAlarms returns. -/
structure MetricAlarm where
  alarmName : String
  alarmDescription : Option String
  actionsEnabled : Bool
  okActions : List String
  alarmActions : List String
  insufficientDataActions : List String
  metricName : Option String
  nameSpace : Option String
  statistic : Option String
  extendedStatistic : Option String
  dimensions : List (String × String)
  period : Option Nat
  unit : Option String
  evaluationPeriods : Nat
  datapointsToAlarm : Option Nat
  threshold : Option Decimal
  comparisonOperator : String
  treatMissingData : Option String
  evaluateLowSampleCountPercentile : Option String
  metrics : List Json
  thresholdMetricId : Option String

structure PutMetricAlarm where
  nameSpace : Option String
  metricName : Option String
  dimensions : List (String × String)
  alarmActions : List String
  comparisonOperator : String
  datapointsToAlarm : Option Nat
  evaluationPeriods : Nat
  period : Option Nat
  statistic : Option String
  threshold : Option Decimal
  alarmDescription : Option String
  alarmName : String

/-- PutMetricAlarm replaces the whole configuration; a parameter left out takes its default. -/
def PutMetricAlarm.alarm (p : PutMetricAlarm) : MetricAlarm where
  alarmName := p.alarmName
  alarmDescription := p.alarmDescription
  actionsEnabled := true
  okActions := []
  alarmActions := p.alarmActions
  insufficientDataActions := []
  metricName := p.metricName
  nameSpace := p.nameSpace
  statistic := p.statistic
  extendedStatistic := none
  dimensions := p.dimensions
  period := p.period
  unit := none
  evaluationPeriods := p.evaluationPeriods
  datapointsToAlarm := p.datapointsToAlarm
  threshold := p.threshold
  comparisonOperator := p.comparisonOperator
  treatMissingData := none
  evaluateLowSampleCountPercentile := none
  metrics := []
  thresholdMetricId := none

inductive RequestType where
  | create
  | update
  | delete
deriving DecidableEq

/-- What `url.parse` makes of a well-formed response URL. -/
structure ResponseUrl where
  hostname : String
  path : String
deriving DecidableEq

structure Event where
  requestType : RequestType
  responseURL : ResponseUrl
  stackId : String
  requestId : String
  logicalResourceId : String

structure Context where
  logStreamName : String
  now : String

structure Env where
  alarmName : String
  snsTopic : String
  awsRegion : String

structure CallError where
  name : String
  message : String
deriving DecidableEq

def CallError.text (err : CallError) : String :=
  if err.name = "" then err.message
  else if err.message = "" then err.name
  else err.name ++ ": " ++ err.message

structure Publish where
  message : String
  topicArn : String

structure HttpsRequest where
  hostname : String
  port : Nat
  path : String
  method : String
  contentType : String
  contentLength : Nat
  body : String

inductive Call where
  | describeAlarms (alarmNames : List String)
  | putMetricAlarm (params : PutMetricAlarm)
  | publish (params : Publish)
  | https (request : HttpsRequest)
  | callback (result : Except CallError String)

/-- `describeAlarms` is answered by `data.MetricAlarms`, `https` by the status of the response. -/
def Call.Answer : Call → Type
  | .describeAlarms _ => Except CallError (List MetricAlarm)
  | .putMetricAlarm _ => Except CallError Unit
  | .publish _ => Except CallError Unit
  | .https _ => Except CallError Nat
  | .callback _ => Unit

abbrev Program := Proc Call Call.Answer

def describeAlarms (alarmNames : List String) : Program (Except CallError (List MetricAlarm)) :=
  Proc.perform (Call.describeAlarms alarmNames)

def putMetricAlarm (params : PutMetricAlarm) : Program (Except CallError Unit) :=
  Proc.perform (Call.putMetricAlarm params)

def publish (params : Publish) : Program (Except CallError Unit) := Proc.perform (Call.publish params)

def httpsRequest (request : HttpsRequest) : Program (Except CallError Nat) := Proc.perform (Call.https request)

def callback (result : Except CallError String) : Program Unit := Proc.perform (Call.callback result)

/-- `p.then(f).catch(g)`: `g` handles a rejection of `p` and what `f` throws. -/
def thenCatch {α : Type} (p : Program (Except CallError α)) (f : α → ExceptT CallError Program Unit)
    (g : CallError → Program Unit) : Program Unit := do
  match ← (ExceptT.mk p >>= f).run with
  | .ok _ => return
  | .error err => g err

/-! ### The handler -/

/-- The length of a string in UTF-16 code units, `s.length`. -/
def jsLength (s : String) : Nat := (s.toList.flatMap Json.utf16).length

inductive ResponseStatus where
  | success
  | failed
deriving DecidableEq

def ResponseStatus.text : ResponseStatus → String
  | .success => "SUCCESS"
  | .failed => "FAILED"

def responseBody (event : Event) (logStreamName : String) (responseStatus : ResponseStatus) (responseData : JsVal) :
    String :=
  (Json.obj (definedMembers
    [("Status", some (.str responseStatus.text)),
     ("Reason", some (.str ("See the details in CloudWatch Log Stream: " ++ logStreamName))),
     ("PhysicalResourceId", some (.str logStreamName)),
     ("StackId", some (.str event.stackId)),
     ("RequestId", some (.str event.requestId)),
     ("LogicalResourceId", some (.str event.logicalResourceId)),
     ("Data", responseData)])).stringify

def responsePut (event : Event) (body : String) : HttpsRequest where
  hostname := event.responseURL.hostname
  port := 443
  path := event.responseURL.path
  method := "PUT"
  contentType := ""
  contentLength := jsLength body
  body := body

def sendResponse (event : Event) (logStreamName : String) (responseStatus : ResponseStatus)
    (responseData : JsVal) : Program Unit := do
  match ← httpsRequest (responsePut event (responseBody event logStreamName responseStatus responseData)) with
  | .ok _ => callback (.ok "Successfully modified alarm.")
  | .error err => callback (.error err)

def errorData (text : String) : JsVal := some (.obj [("Error", .str text)])

def message (env : Env) (now : String) : Json :=
  .obj
    [("AlarmName", .str env.alarmName),
     ("AlarmDescription", .null),
     ("AWSAccountId", .str "XXX"),
     ("NewStateValue", .str "ALARM"),
     ("NewStateReason", .str ""),
     ("StateChangeTime", .str now),
     ("Region", .str env.awsRegion),
     ("OldStateValue", .str ""),
     ("Trigger", .obj
       [("MetricName", .str "Ready!"),
        ("Namespace", .str "AWS"),
        ("StatisticType", .str ""),
        ("Statistic", .str ""),
        ("Unit", .null),
        ("Dimensions", .arr [.obj [("name", .str "Currency"), ("value", .str "USD")]]),
        ("Period", .num ⟨86400, 0⟩),
        ("EvaluationPeriods", .num ⟨1, 0⟩),
        ("ComparisonOperator", .str "GreaterThanThreshold"),
        ("Threshold", .num ⟨1, 0⟩),
        ("TreatMissingData", .str ""),
        ("EvaluateLowSampleCountPercentile", .str ""),
        ("Timestamp", .str "2017-10-30T13: 20: 35.855Z"),
        ("SignatureVersion", .str "1"),
        ("Signature", .str ""),
        ("SigningCertUrl", .str ""),
        ("UnsubscribeUrl", .str ""),
        ("MessageAttributes", .null)])]

def confirmAlert (env : Env) (event : Event) (context : Context) : Program Unit :=
  thenCatch (publish { message := (message env context.now).stringify, topicArn := env.snsTopic })
    (fun _ => ExceptT.lift (sendResponse event context.logStreamName .success none))
    (fun err => sendResponse event context.logStreamName .failed
      (errorData ("Failed to send test message" ++ err.text)))

def modifyAlertAndSubscribe (env : Env) (event : Event) (context : Context) : List MetricAlarm → Program Unit
  | [] => return
  | origAlarm :: _ =>
    thenCatch (putMetricAlarm
      { nameSpace := origAlarm.nameSpace
        metricName := origAlarm.metricName
        dimensions := origAlarm.dimensions
        alarmActions := origAlarm.alarmActions ++ [env.snsTopic]
        comparisonOperator := origAlarm.comparisonOperator
        datapointsToAlarm := origAlarm.datapointsToAlarm
        evaluationPeriods := origAlarm.evaluationPeriods
        period := origAlarm.period
        statistic := origAlarm.statistic
        threshold := origAlarm.threshold
        alarmDescription := origAlarm.alarmDescription
        alarmName := origAlarm.alarmName })
      (fun _ => ExceptT.lift (confirmAlert env event context))
      (fun err => sendResponse event context.logStreamName .failed
        (errorData ("Failed to modify alarm and subscribe SNS topic" ++ err.text)))

def removeSubscription (env : Env) (event : Event) (context : Context) : List MetricAlarm → Program Unit
  | [] => return
  | origAlarm :: _ =>
    thenCatch (putMetricAlarm
      { nameSpace := origAlarm.nameSpace
        metricName := origAlarm.metricName
        dimensions := origAlarm.dimensions
        alarmActions := origAlarm.alarmActions.filter fun item => item ≠ env.snsTopic
        comparisonOperator := origAlarm.comparisonOperator
        datapointsToAlarm := origAlarm.datapointsToAlarm
        evaluationPeriods := origAlarm.evaluationPeriods
        period := origAlarm.period
        statistic := origAlarm.statistic
        threshold := origAlarm.threshold
        alarmDescription := origAlarm.alarmDescription
        alarmName := origAlarm.alarmName })
      (fun _ => ExceptT.lift (sendResponse event context.logStreamName .success none))
      (fun err => sendResponse event context.logStreamName .failed
        (errorData ("Failed to modify alarm and unsubscribe SNS topic" ++ err.text)))

def describeAlarm (env : Env) : Program (Except CallError (List MetricAlarm)) :=
  describeAlarms [env.alarmName]

def handler (env : Env) (event : Event) (context : Context) : Program Unit :=
  if event.requestType = .create then
    thenCatch (describeAlarm env)
      (fun data => ExceptT.lift (modifyAlertAndSubscribe env event context data))
      (fun err => sendResponse event context.logStreamName .failed
        (errorData ("Failed to modify alarm and subscribe SNS topic " ++ err.message)))
  else
    thenCatch (describeAlarm env)
      (fun data => ExceptT.lift (removeSubscription env event context data))
      (fun err => sendResponse event context.logStreamName .failed
        (errorData ("Failed to modify alarm and unsubscribe SNS topic " ++ err.message)))

theorem thenCatch_lift {α : Type} (p : Program (Except CallError α)) (f : α → Program Unit)
    (g : CallError → Program Unit) : thenCatch p (fun a => ExceptT.lift (f a)) g =
      p >>= fun r => match r with
        | .ok a => f a
        | .error err => g err := by
  simp only [thenCatch, ExceptT.run_bind, ExceptT.run_mk, ExceptT.run_lift, bind_assoc]
  refine congrArg (p >>= ·) (funext fun r => ?_)
  cases r with
  | ok a =>
    simp only [bind_map_left]
    exact Proc.bind_ret (f a)
  | error err => rfl

def newActions (snsTopic : String) (requestType : RequestType) (actions : List String) : List String :=
  if requestType = .create then actions ++ [snsTopic] else actions.filter fun item => item ≠ snsTopic

/-- What the handler puts back for the alarm it has read. -/
def putParams (env : Env) (requestType : RequestType) (origAlarm : MetricAlarm) : PutMetricAlarm where
  nameSpace := origAlarm.nameSpace
  metricName := origAlarm.metricName
  dimensions := origAlarm.dimensions
  alarmActions := newActions env.snsTopic requestType origAlarm.alarmActions
  comparisonOperator := origAlarm.comparisonOperator
  datapointsToAlarm := origAlarm.datapointsToAlarm
  evaluationPeriods := origAlarm.evaluationPeriods
  period := origAlarm.period
  statistic := origAlarm.statistic
  threshold := origAlarm.threshold
  alarmDescription := origAlarm.alarmDescription
  alarmName := origAlarm.alarmName

def describeFailed (requestType : RequestType) (err : CallError) : String :=
  if requestType = .create then "Failed to modify alarm and subscribe SNS topic " ++ err.message
  else "Failed to modify alarm and unsubscribe SNS topic " ++ err.message

def putFailed (requestType : RequestType) (err : CallError) : String :=
  if requestType = .create then "Failed to modify alarm and subscribe SNS topic" ++ err.text
  else "Failed to modify alarm and unsubscribe SNS topic" ++ err.text

def afterPut (env : Env) (event : Event) (context : Context) : Program Unit :=
  if event.requestType = .create then confirmAlert env event context
  else sendResponse event context.logStreamName .success none

def afterDescribe (env : Env) (event : Event) (context : Context) : List MetricAlarm → Program Unit
  | [] => .ret ()
  | origAlarm :: _ => .call (.putMetricAlarm (putParams env event.requestType origAlarm)) fun r =>
    match r with
    | .ok _ => afterPut env event context
    | .error err => sendResponse event context.logStreamName .failed
        (errorData (putFailed event.requestType err))

section
variable {α : Type}

theorem describeAlarms_bind (alarmNames : List String) (f : Except CallError (List MetricAlarm) → Program α) :
    describeAlarms alarmNames >>= f = .call (.describeAlarms alarmNames) f := rfl

theorem putMetricAlarm_bind (params : PutMetricAlarm) (f : Except CallError Unit → Program α) :
    putMetricAlarm params >>= f = .call (.putMetricAlarm params) f := rfl

theorem publish_bind (params : Publish) (f : Except CallError Unit → Program α) :
    publish params >>= f = .call (.publish params) f := rfl

theorem httpsRequest_bind (request : HttpsRequest) (f : Except CallError Nat → Program α) :
    httpsRequest request >>= f = .call (.https request) f := rfl

end

theorem sendResponse_eq (event : Event) (logStreamName : String) (status : ResponseStatus) (data : JsVal) :
    sendResponse event logStreamName status data =
      .call (.https (responsePut event (responseBody event logStreamName status data))) fun r =>
        match r with
        | .ok _ => callback (.ok "Successfully modified alarm.")
        | .error err => callback (.error err) := by
  rw [sendResponse, httpsRequest_bind]
  exact congrArg (Proc.call _) (funext fun r => by cases r <;> rfl)

theorem confirmAlert_eq (env : Env) (event : Event) (context : Context) : confirmAlert env event context =
    .call (.publish ⟨(message env context.now).stringify, env.snsTopic⟩) fun r =>
      match r with
      | .ok _ => sendResponse event context.logStreamName .success none
      | .error err => sendResponse event context.logStreamName .failed
          (errorData ("Failed to send test message" ++ err.text)) := by
  rw [confirmAlert, thenCatch_lift, publish_bind]
  exact congrArg (Proc.call _) (funext fun r => by cases r <;> rfl)

section
variable {env : Env} {event : Event} {context : Context}

theorem modifyAlertAndSubscribe_eq (h : event.requestType = .create) (data : List MetricAlarm) :
    modifyAlertAndSubscribe env event context data = afterDescribe env event context data := by
  cases data with
  | nil => rfl
  | cons origAlarm rest =>
    rw [modifyAlertAndSubscribe, afterDescribe, thenCatch_lift, putMetricAlarm_bind, putParams, newActions, if_pos h]
    refine congrArg (Proc.call _) (funext fun r => ?_)
    cases r with
    | ok _ => simp only [afterPut, if_pos h]
    | error err => simp only [putFailed, if_pos h]

theorem removeSubscription_eq (h : event.requestType ≠ .create) (data : List MetricAlarm) :
    removeSubscription env event context data = afterDescribe env event context data := by
  cases data with
  | nil => rfl
  | cons origAlarm rest =>
    rw [removeSubscription, afterDescribe, thenCatch_lift, putMetricAlarm_bind, putParams, newActions, if_neg h]
    refine congrArg (Proc.call _) (funext fun r => ?_)
    cases r with
    | ok _ => simp only [afterPut, if_neg h]
    | error err => simp only [putFailed, if_neg h]

theorem handler_eq : handler env event context =
    .call (.describeAlarms [env.alarmName]) fun r =>
      match r with
      | .ok data => afterDescribe env event context data
      | .error err => sendResponse event context.logStreamName .failed
          (errorData (describeFailed event.requestType err)) := by
  by_cases h : event.requestType = .create
  · rw [handler, if_pos h, thenCatch_lift, describeAlarm, describeAlarms_bind]
    refine congrArg (Proc.call _) (funext fun r => ?_)
    cases r with
    | ok data => exact modifyAlertAndSubscribe_eq h data
    | error err => simp only [describeFailed, if_pos h]
  · rw [handler, if_neg h, thenCatch_lift, describeAlarm, describeAlarms_bind]
    refine congrArg (Proc.call _) (funext fun r => ?_)
    cases r with
    | ok data => exact removeSubscription_eq h data
    | error err => simp only [describeFailed, if_neg h]

end

/-! ### The handler on an alarm -/

/-- CloudWatch with one alarm, where the CloudWatch and SNS calls succeed; `response` is the outcome of
the request that answers CloudFormation. -/
def execAlarm (response : Except CallError Nat) : (c : Call) → MetricAlarm → c.Answer × MetricAlarm
  | .describeAlarms alarmNames, a => (.ok (if a.alarmName ∈ alarmNames then [a] else []), a)
  | .putMetricAlarm params, a => (.ok (), if params.alarmName = a.alarmName then params.alarm else a)
  | .publish _, a => (.ok (), a)
  | .https _, a => (response, a)
  | .callback _, a => ((), a)

def Call.isPut : Call → Prop
  | .putMetricAlarm _ => True
  | _ => False

theorem sendResponse_noPut (event : Event) (logStreamName : String) (status : ResponseStatus) (data : JsVal) :
    (sendResponse event logStreamName status data).All fun c => ¬ c.isPut := by
  rw [sendResponse_eq]
  refine .call id fun r => ?_
  cases r with
  | ok _ => exact .call id fun _ => .ret _
  | error err => exact .call id fun _ => .ret _

theorem afterPut_noPut (env : Env) (event : Event) (context : Context) :
    (afterPut env event context).All fun c => ¬ c.isPut := by
  rw [afterPut]
  split_ifs
  · rw [confirmAlert_eq]
    refine .call id fun r => ?_
    cases r with
    | ok _ => exact sendResponse_noPut ..
    | error err => exact sendResponse_noPut ..
  · exact sendResponse_noPut ..

theorem execAlarm_noPut (response : Except CallError Nat) {c : Call} (h : ¬ c.isPut) (a : MetricAlarm) :
    (execAlarm response c a).2 = a := by
  cases c with
  | putMetricAlarm params => exact absurd trivial h
  | _ => rfl

def plainAlarm : MetricAlarm where
  alarmName := "alarm"
  alarmDescription := none
  actionsEnabled := true
  okActions := []
  alarmActions := []
  insufficientDataActions := []
  metricName := some "Errors"
  nameSpace := some "AWS/Lambda"
  statistic := some "Sum"
  extendedStatistic := none
  dimensions := []
  period := some 60
  unit := none
  evaluationPeriods := 1
  datapointsToAlarm := none
  threshold := some ⟨1, 0⟩
  comparisonOperator := "GreaterThanThreshold"
  treatMissingData := none
  evaluateLowSampleCountPercentile := none
  metrics := []
  thresholdMetricId := none

end ModifyAlarm

end FullStack
