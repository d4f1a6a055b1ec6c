import FullStack.GoalsApi

/-!
# The answers of the goals API

What the client of the API observes for an arbitrary outcome of the handler's DynamoDB call: the
handler's response goes through the Lambda proxy integration of API Gateway (`proxyStatus`). A
request that gets to its call is answered once (`answer_eq`). A success is a well-formed 200; a
failure carries the error object itself as `body`, which the gateway refuses (`wellAnswered_iff`).
-/

namespace FullStack

def isScalar : Json → Bool
  | .str _ => true
  | .num _ => true
  | .bool _ => true
  | _ => false

def Body.isText : Body → Bool
  | .absent => true
  | .text _ => true
  | .error _ => false

/-- The format the proxy integration takes: scalar header values, and a `body` that is left out or a
string. The status code is an integer by its type. -/
def Response.proxyFormat (r : Response) : Bool := r.headers.all (fun h => isScalar h.2) && r.body.isText

/-- The status code the client observes; 502 stands for a malformed or missing response. -/
def proxyStatus (o : Outcome) : Int :=
  match o.thrown, o.responses with
  | none, r :: _ => if r.proxyFormat then r.statusCode else 502
  | _, _ => 502

/-- An outcome of the DynamoDB call: any error, or success with any data (`item` is `data.Item`). -/
inductive DbOutcome where
  | failure (e : AwsError)
  | success (item : JsVal) (output : QueryOutput)

namespace DbOutcome

def Succeeded : DbOutcome → Prop
  | .failure _ => False
  | .success _ _ => True

def statusCode : DbOutcome → Int
  | .failure _ => 500
  | .success _ _ => 200

def reply : DbOutcome → (r : Request) → r.Answer
  | .failure e, .put _ => .error e
  | .failure e, .get _ => .error e
  | .failure e, .query _ _ => .error e
  | .failure e, .update _ _ _ => .error e
  | .failure e, .delete _ => .error e
  | .success _ _, .put _ => .ok ()
  | .success item _, .get _ => .ok item
  | .success _ output, .query _ _ => .ok output
  | .success _ _, .update _ _ _ => .ok ()
  | .success _ _, .delete _ => .ok ()

end DbOutcome

def replyCall (d : DbOutcome) : (c : Call) → List Response → c.Answer × List Response
  | .dynamoDb r, rs => (d.reply r, rs)
  | .callback response, rs => ((), rs ++ [response])

def answer (fn : GoalFunction) (event : Event) (context : Context) (d : DbOutcome) : Outcome :=
  let r := (fn.handler event context).run.run (replyCall d) []
  { thrown := thrownBy r.1, responses := r.2 }

/-- One callback, in the format the gateway takes, with the status code documented for `d`, which is
what the client observes. -/
structure WellAnswered (o : Outcome) (d : DbOutcome) : Prop where
  returns : o.thrown = none
  once : ∃ r, o.responses = [r] ∧ r.proxyFormat ∧ r.statusCode = d.statusCode
  observed : proxyStatus o = d.statusCode

def GoalFunction.usesBody : GoalFunction → Bool
  | .createGoal => true
  | .updateGoal => true
  | _ => false

def GoalFunction.successBody : GoalFunction → JsVal → QueryOutput → Body
  | .getGoal, item, _ => stringifyBody item
  | .listGoals, _, output => .text (Json.arr output.items).stringify
  | _, _, _ => .absent

theorem isText_successBody (fn : GoalFunction) (item : JsVal) (output : QueryOutput) :
    (fn.successBody item output).isText := by
  cases fn with
  | getGoal => cases item <;> rfl
  | _ => rfl

theorem bodyFields_of_obj {body : Option String} {ms : List (String × Json)}
    (h : jsonParse body = .ok (some (.obj ms))) :
    bodyFields body = .ok (Json.lookup "title" ms, Json.lookup "content" ms) := by
  rw [bodyFields, h]
  rfl

section
variable {fn : GoalFunction} {event : Event}

theorem answer_eq (hbody : fn.usesBody → ∃ ms, jsonParse event.body = .ok (some (.obj ms)))
    (context : Context) (d : DbOutcome) : answer fn event context d =
      match d with
      | .failure e => failed e
      | .success item output => succeeded (fn.successBody item output) := by
  cases fn with
  | createGoal =>
    obtain ⟨ms, hms⟩ := hbody rfl
    simp only [answer, GoalFunction.handler, CreateGoal.handler_eq, bodyFields_of_obj hms]
    cases d <;> rfl
  | updateGoal =>
    obtain ⟨ms, hms⟩ := hbody rfl
    simp only [answer, GoalFunction.handler, UpdateGoal.handler_eq, bodyFields_of_obj hms]
    cases d <;> rfl
  | getGoal =>
    simp only [answer, GoalFunction.handler, GetGoal.handler_eq]
    cases d <;> rfl
  | listGoals =>
    simp only [answer, GoalFunction.handler, ListGoals.handler_eq]
    cases d <;> rfl
  | deleteGoal =>
    simp only [answer, GoalFunction.handler, DeleteGoal.handler_eq]
    cases d <;> rfl

theorem wellAnswered_succeeded {body : Body} (h : body.isText) (item : JsVal) (output : QueryOutput) :
    WellAnswered (succeeded body) (.success item output) := by
  have hformat : (⟨200, corsHeaders, body⟩ : Response).proxyFormat := by
    simp [Response.proxyFormat, corsHeaders, isScalar, h]
  exact ⟨rfl, ⟨_, rfl, hformat, rfl⟩, if_pos hformat⟩

theorem not_wellAnswered_failed (e : AwsError) (d : DbOutcome) : ¬ WellAnswered (failed e) d := by
  rintro ⟨-, ⟨r, hr, hformat, -⟩, -⟩
  obtain rfl := (List.cons.inj hr).1
  simp [Response.proxyFormat, Body.isText] at hformat

/-- A request is well answered exactly when its DynamoDB call succeeds. -/
theorem wellAnswered_iff (hbody : fn.usesBody → ∃ ms, jsonParse event.body = .ok (some (.obj ms)))
    (context : Context) (d : DbOutcome) :
    WellAnswered (answer fn event context d) d ↔ d.Succeeded := by
  rw [answer_eq hbody]
  cases d with
  | failure e => exact iff_of_false (not_wellAnswered_failed e _) id
  | success item output =>
    exact iff_of_true (wellAnswered_succeeded (isText_successBody fn item output) item output) trivial

end

theorem wellAnswered_create :
    WellAnswered (answer .createGoal ⟨"u", ⟨"g"⟩, some (Json.obj [("title", .str "run")]).stringify⟩ ⟨"g", 0⟩
      (.success none ⟨[], none⟩)) (.success none ⟨[], none⟩) := by
  refine (wellAnswered_iff (fun _ => ?_) _ _).2 trivial
  exact ⟨_, jsonParse_stringify _⟩

/-- A throttled delete: the client observes 502. -/
theorem throttled_delete_not_wellAnswered :
    let d : DbOutcome := .failure ⟨[("code", .str "ProvisionedThroughputExceededException")]⟩
    let o := answer .deleteGoal ⟨"u", ⟨"g"⟩, none⟩ ⟨"r", 0⟩ d
    ¬ WellAnswered o d ∧ proxyStatus o = 502 := by
  refine ⟨?_, by decide⟩
  exact not_wellAnswered_failed _ _

end FullStack
