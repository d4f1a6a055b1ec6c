import FullStack.Js

/-!
# The alert webhooks

`slack.js` and `chime.js` turn an alarm message into a POST to a webhook. Their handlers are one scheme
(`notify`) with two message builders. The scheme hands `postMessage` a callback that would end the
invocation, and `postMessage` does not use it: `https.request` gets no response listener. So no handler
ever reports what the webhook has replied (`not_reported`), and the builders differ in what they
guard: without a trigger `slack.js` throws where `chime.js` posts (`slack_posts_iff`, `chime_posts_iff`).
-/

namespace FullStack

namespace AlertWebhook

/-- `numberText n` is `String(n)` of the double nearest to the decimal, and `gmtString v` is
`new Date(v).toGMTString()`, of an invalid date too. -/
structure Platform where
  numberText : Decimal → String
  gmtString : JsVal → String

mutual
/-- The conversion to a string: an own `toString` of a JSON object is not callable, and hides the inherited one. -/
def toText (platform : Platform) : Json → Except JsError String
  | .null => .ok "null"
  | .bool b => .ok (if b then "true" else "false")
  | .num n => .ok (platform.numberText n)
  | .str s => .ok s
  | .arr vs => do return ",".intercalate (← elementTexts platform vs)
  | .obj ms => if (Json.lookup "toString" ms).isSome then .error .typeError else .ok "[object Object]"

def elementTexts (platform : Platform) : List Json → Except JsError (List String)
  | [] => .ok []
  | v :: vs => do
    let s ← match v with
      | .null => .ok ""
      | v => toText platform v
    return s :: (← elementTexts platform vs)
end

def concatText (platform : Platform) : JsVal → Except JsError String
  | none => .ok "undefined"
  | some v => toText platform v

/-- `new Date(v).toGMTString()`; `v` is converted to a primitive value first. -/
def dateText (platform : Platform) (v : JsVal) : Except JsError String := do
  let _ ← concatText platform v
  return platform.gmtString v

def isNullish : JsVal → Bool
  | none => true
  | some .null => true
  | some _ => false

/-- What `url.parse` makes of the webhook's URL. -/
structure WebhookUrl where
  hostname : String
  path : String

structure HttpsRequest where
  url : WebhookUrl
  method : String
  contentType : String
  body : String

structure Reply where
  statusCode : Nat
  statusMessage : String

/-- `https` is a request that has no response listener; the reply to it is discarded. -/
inductive Call where
  | https (request : HttpsRequest)
  | succeed
  | fail (message : String)

abbrev Handler := ExceptT JsError (Proc Call fun _ => Unit) Unit

def perform (c : Call) : Handler := ExceptT.lift (Proc.perform c)

structure Event where
  message : String

def cloudwatchUrl : String := "https://console.aws.amazon.com/cloudwatch/home#alarmsV2:alarm/"

def getJsonFromString (str : String) : Json := (Json.parse str).getD .null

def postMessage (webhook : WebhookUrl) (message : Json) (_callback : Reply → Handler) : Handler :=
  perform (.https
    { url := webhook, method := "POST", contentType := "application/json", body := message.stringify })

/-- The handlers, but for the message that they build. -/
def notify (webhook : WebhookUrl) (data : Json → Except JsError Json) (event : Event) : Handler := do
  let message := getJsonFromString event.message
  if isNullish message then
    perform (.fail "CloudWatch Alarm messsage is not valid JSON")
  else
    let data ← data message
    postMessage webhook data fun response =>
      if response.statusCode = 200 then perform .succeed
      else perform (.fail ("Error " ++ toString response.statusCode ++ " - " ++ response.statusMessage))

namespace Slack

def field (title : String) (value : JsVal) : Json :=
  .obj (definedMembers [("title", some (.str title)), ("value", value), ("short", some (.bool true))])

def data (platform : Platform) (message : Json) : Except JsError Json := do
  let alarmName ← prop "AlarmName" message
  let link ← concatText platform alarmName
  let time ← dateText platform (← prop "StateChangeTime" message)
  let trigger ← prop "Trigger" message
  let nameSpace ← prop "Namespace" trigger
  let metricName ← prop "MetricName" trigger
  let account ← prop "AWSAccountId" message
  let region ← prop "Region" message
  return .obj [("attachments", .arr [.obj
    [("title", .str "AWS Alarm"),
     ("title_link", .str (cloudwatchUrl ++ link)),
     ("fields", .arr
       [field "Alarm" alarmName,
        field "Time" (some (.str time)),
        field "Namespace" nameSpace,
        field "MetricName" metricName,
        field "Account" account,
        field "Region" region])]])]

def handler (platform : Platform) (webhook : WebhookUrl) (event : Event) : Handler :=
  notify webhook (data platform) event

end Slack

namespace Chime

def triggerText (platform : Platform) (trigger : JsVal) : Except JsError String :=
  if isNullish trigger then .ok ""
  else do
    let nameSpace ← concatText platform (← prop "Namespace" trigger)
    let metricName ← concatText platform (← prop "MetricName" trigger)
    return "\n :information_source:  " ++ nameSpace ++ " | " ++ metricName

def data (platform : Platform) (message : Json) : Except JsError Json := do
  let trigger ← prop "Trigger" message
  let alarmName ← concatText platform (← prop "AlarmName" message)
  let region ← concatText platform (← prop "Region" message)
  let time ← dateText platform (← prop "StateChangeTime" message)
  let metric ← triggerText platform trigger
  let account ← concatText platform (← prop "AWSAccountId" message)
  return .obj [("Content", .str
    ("@Present AWS Alarm\n\n :rotating_light: " ++ alarmName ++
      "\n :earth_americas:  " ++ region ++ "  :clock1: " ++ time ++ metric ++
      "\n :hash:  " ++ account ++ "\n\n :link:  " ++ cloudwatchUrl ++ alarmName))]

def handler (platform : Platform) (webhook : WebhookUrl) (event : Event) : Handler :=
  notify webhook (data platform) event

end Chime

/-- How an invocation ends: what it throws, and the calls it has made. -/
structure Invoked where
  thrown : Option JsError
  calls : List Call

def Invoked.posts (r : Invoked) : List HttpsRequest :=
  r.calls.filterMap fun c => match c with
    | .https request => some request
    | _ => none

def invoked (handler : Handler) : Invoked :=
  let r := handler.run.run (fun c (log : List Call) => ((), log ++ [c])) []
  ⟨match r.1 with
    | .error e => some e
    | .ok _ => none, r.2⟩

/-- One POST is made, and the invocation is ended as the reply to it says. -/
structure Reported (r : Invoked) (reply : Reply) : Prop where
  returns : r.thrown = none
  posts : ∃ request, r.posts = [request] ∧ request.method = "POST"
  succeeds : .succeed ∈ r.calls ↔ reply.statusCode = 200
  fails : (∃ message, .fail message ∈ r.calls) ↔ reply.statusCode ≠ 200

def webhookPost (webhook : WebhookUrl) (data : Json) : HttpsRequest where
  url := webhook
  method := "POST"
  contentType := "application/json"
  body := data.stringify

section
variable (webhook : WebhookUrl) (data : Json → Except JsError Json) {event : Event}

theorem invoked_null (h : getJsonFromString event.message = .null) :
    invoked (notify webhook data event) = ⟨none, [.fail "CloudWatch Alarm messsage is not valid JSON"]⟩ := by
  rw [notify, h]
  rfl

theorem isNullish_of_ne {v : Json} (h : v ≠ .null) : isNullish (some v) = false := by
  cases v with
  | null => exact absurd rfl h
  | _ => rfl

theorem invoked_message (h : getJsonFromString event.message ≠ .null) :
    invoked (notify webhook data event) =
      match data (getJsonFromString event.message) with
      | .error e => ⟨some e, []⟩
      | .ok body => ⟨none, [.https (webhookPost webhook body)]⟩ := by
  rw [notify]
  simp only [isNullish_of_ne h]
  cases data (getJsonFromString event.message) <;> rfl

/-- However the webhook replies, the invocation does not report it. -/
theorem not_reported (reply : Reply) : ¬ Reported (invoked (notify webhook data event)) reply := by
  intro h
  by_cases hnull : getJsonFromString event.message = .null
  · rw [invoked_null webhook data hnull] at h
    obtain ⟨request, hposts, -⟩ := h.posts
    cases hposts
  · have hinvoked := invoked_message webhook data hnull
    cases hdata : data (getJsonFromString event.message) with
    | error e =>
      rw [hinvoked, hdata] at h
      cases h.returns
    | ok body =>
      rw [hinvoked, hdata] at h
      by_cases hstatus : reply.statusCode = 200
      · have hsucceed := h.succeeds.2 hstatus
        cases List.mem_singleton.1 hsucceed
      · obtain ⟨message, hfail⟩ := h.fails.2 hstatus
        cases List.mem_singleton.1 hfail

end

def Convertible (platform : Platform) (v : JsVal) : Prop := ∃ s, concatText platform v = .ok s

mutual
theorem exists_toText_iff (platform : Platform) (v : Json) :
    (∃ s, toText platform v = .ok s) ↔ isConvertible v = true := by
  cases v with
  | arr vs =>
    rw [toText, isConvertible, ← exists_elementTexts_iff platform vs]
    simp [bind_eq_ok, pure, Except.pure]
  | obj ms =>
    rw [toText, isConvertible]
    cases Json.lookup "toString" ms <;> simp
  | _ => simp [toText, isConvertible]

theorem exists_elementTexts_iff (platform : Platform) (vs : List Json) :
    (∃ texts, elementTexts platform vs = .ok texts) ↔ areConvertible vs = true := by
  cases vs with
  | nil => simp [elementTexts, areConvertible]
  | cons v vs =>
    have hv := exists_toText_iff platform v
    have hvs := exists_elementTexts_iff platform vs
    rw [areConvertible, Bool.and_eq_true, ← hv, ← hvs]
    cases v <;> simp [elementTexts, toText, bind_eq_ok, pure, Except.pure]
end

/-- Whether a value has a text does not depend on the platform. -/
theorem convertible_iff (platform : Platform) (v : Json) : Convertible platform (some v) ↔ isConvertible v = true :=
  exists_toText_iff platform v

theorem posts_iff (webhook : WebhookUrl) (data : Json → Except JsError Json) {event : Event}
    (h : getJsonFromString event.message ≠ .null) :
    (∃ request, (invoked (notify webhook data event)).posts = [request]) ↔
      ∃ body, data (getJsonFromString event.message) = .ok body := by
  rw [invoked_message webhook data h]
  cases data (getJsonFromString event.message) with
  | error e => exact iff_of_false (fun ⟨_, hr⟩ => by cases hr) (fun ⟨_, hb⟩ => by cases hb)
  | ok body => exact iff_of_true ⟨_, rfl⟩ ⟨_, rfl⟩

theorem prop_ok_iff (name : String) (v : JsVal) : (∃ w, prop name v = .ok w) ↔ isNullish v = false := by
  cases v with
  | none => simp [prop, isNullish]
  | some v => cases v <;> simp [prop, isNullish]

theorem slack_data_ok_iff (platform : Platform) (ms : List (String × Json)) :
    (∃ body, Slack.data platform (.obj ms) = .ok body) ↔
      Convertible platform (Json.lookup "AlarmName" ms) ∧ Convertible platform (Json.lookup "StateChangeTime" ms) ∧
        isNullish (Json.lookup "Trigger" ms) = false := by
  simp [Slack.data, dateText, bind_eq_ok, prop_obj, prop_ok_iff, Convertible]

theorem chime_data_ok_iff (platform : Platform) (ms : List (String × Json)) :
    (∃ body, Chime.data platform (.obj ms) = .ok body) ↔
      Convertible platform (Json.lookup "AlarmName" ms) ∧ Convertible platform (Json.lookup "Region" ms) ∧
        Convertible platform (Json.lookup "StateChangeTime" ms) ∧
        (∃ s, Chime.triggerText platform (Json.lookup "Trigger" ms) = .ok s) ∧
        Convertible platform (Json.lookup "AWSAccountId" ms) := by
  unfold Chime.data Convertible
  simp only [prop_obj, dateText, bind_assoc, pure_bind, bind_eq_ok, Except.ok.injEq, exists_eq_left', exists_and_right]
  constructor
  · rintro ⟨_, alarmName, ha, region, hr, htime, trigger, ht, account, hacc, -⟩
    exact ⟨⟨alarmName, ha⟩, ⟨region, hr⟩, htime, ⟨trigger, ht⟩, ⟨account, hacc⟩⟩
  · rintro ⟨⟨alarmName, ha⟩, ⟨region, hr⟩, htime, ⟨trigger, ht⟩, ⟨account, hacc⟩⟩
    exact ⟨_, alarmName, ha, region, hr, htime, trigger, ht, account, hacc, rfl⟩

section
variable (platform : Platform) (webhook : WebhookUrl) {event : Event} {ms : List (String × Json)}
  (h : getJsonFromString event.message = .obj ms)

include h

theorem slack_posts_iff : (∃ request, (invoked (Slack.handler platform webhook event)).posts = [request]) ↔
    Convertible platform (Json.lookup "AlarmName" ms) ∧ Convertible platform (Json.lookup "StateChangeTime" ms) ∧
      isNullish (Json.lookup "Trigger" ms) = false := by
  rw [Slack.handler, posts_iff webhook _ (by simp [h]), h]
  exact slack_data_ok_iff platform ms

theorem chime_posts_iff : (∃ request, (invoked (Chime.handler platform webhook event)).posts = [request]) ↔
    Convertible platform (Json.lookup "AlarmName" ms) ∧ Convertible platform (Json.lookup "Region" ms) ∧
      Convertible platform (Json.lookup "StateChangeTime" ms) ∧
      (∃ s, Chime.triggerText platform (Json.lookup "Trigger" ms) = .ok s) ∧
      Convertible platform (Json.lookup "AWSAccountId" ms) := by
  rw [Chime.handler, posts_iff webhook _ (by simp [h]), h]
  exact chime_data_ok_iff platform ms

end

/-- Neither handler ever ends an invocation as the webhook has replied. -/
theorem alert_not_reported (platform : Platform) (webhook : WebhookUrl) (event : Event) (reply : Reply) :
    ¬ Reported (invoked (Slack.handler platform webhook event)) reply ∧
      ¬ Reported (invoked (Chime.handler platform webhook event)) reply :=
  ⟨not_reported webhook (Slack.data platform) reply, not_reported webhook (Chime.data platform) reply⟩

def triggerless : Event := ⟨(Json.obj [("AlarmName", .str "errors")]).stringify⟩

theorem getJson_triggerless : getJsonFromString triggerless.message = .obj [("AlarmName", .str "errors")] := by
  rw [getJsonFromString, triggerless, Json.parse_stringify]
  rfl

/-- The webhook is gone: `slack.js` throws before it posts, and `chime.js` does not fail. -/
theorem rejected_alert_not_reported :
    (invoked (Slack.handler ⟨fun _ => "", fun _ => "Invalid Date"⟩ ⟨"hooks", "/alerts"⟩ triggerless)).thrown =
        some .typeError ∧
      ¬ Reported (invoked (Slack.handler ⟨fun _ => "", fun _ => "Invalid Date"⟩ ⟨"hooks", "/alerts"⟩ triggerless))
        ⟨404, "Not Found"⟩ ∧
      ¬ Reported (invoked (Chime.handler ⟨fun _ => "", fun _ => "Invalid Date"⟩ ⟨"hooks", "/alerts"⟩ triggerless))
        ⟨404, "Not Found"⟩ := by
  refine ⟨?_, not_reported _ _ _, not_reported _ _ _⟩
  rw [Slack.handler, invoked_message _ _ (by simp [getJson_triggerless]), getJson_triggerless]
  rfl

end AlertWebhook

end FullStack
