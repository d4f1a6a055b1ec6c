import FullStack.DynamoDb
import FullStack.Lib.Machine

/-!
# The five handlers of the goals API

`CreateGoal`, `GetGoal`, `ListGoals`, `UpdateGoal` and `DeleteGoal` as programs that make one
DocumentClient call and then invoke the Lambda callback. `invoke` runs one invocation against the
table; the outcome of its DynamoDB call, its request id and its clock reading come with the
invocation. The `invoke_*` lemmas say, handler by handler, everything an invocation does.
-/

namespace FullStack

structure PathParameters where
  id : String

/-- The parts of the API Gateway event that the handlers read. `identity` is
`requestContext.identity.cognitoIdentityId`; `body` is `null` for a request without one. -/
structure Event where
  identity : String
  pathParameters : PathParameters
  body : Option String

/-- The Lambda context, and what `Date.now()` reads during the invocation. -/
structure Context where
  awsRequestId : String
  now : Nat

/-- The `body` of a response: left out (or `undefined`), a string, or an error object. -/
inductive Body where
  | absent
  | text (s : String)
  | error (e : AwsError)

structure Response where
  statusCode : Int
  headers : List (String × Json)
  body : Body

inductive Call where
  | dynamoDb (r : Request)
  | callback (response : Response)

def Call.Answer : Call → Type
  | .dynamoDb r => r.Answer
  | .callback _ => Unit

abbrev Program := Proc Call Call.Answer

abbrev Handler := ExceptT JsError Program Unit

def dynamoDb (r : Request) : Program r.Answer := Proc.perform (Call.dynamoDb r)

def callback (response : Response) : Program Unit := Proc.perform (Call.callback response)

def corsHeaders : List (String × Json) :=
  [("Access-Control-Allow-Origin", .str "*"), ("Access-Control-Allow-Credentials", .bool true)]

/-- The DynamoDB callback, which the handlers share but for the `body` of a success. -/
def dbCallback {α : Type} (body : α → Body) (result : Except AwsError α) : Program Unit := do
  if let .error error := result then
    callback { statusCode := 500, headers := corsHeaders, body := .error error }
    return
  if let .ok data := result then
    callback { statusCode := 200, headers := corsHeaders, body := body data }

def stringifyBody : JsVal → Body
  | none => .absent
  | some v => .text v.stringify

/-! ### The handlers -/

namespace CreateGoal

def handler (event : Event) (context : Context) : Handler := do
  let data ← jsonParse event.body
  let title ← prop "title" data
  let content ← prop "content" data
  let result ← dynamoDb (.put
    { userId := event.identity
      goalId := context.awsRequestId
      attributes := [("title", title), ("content", content), ("createdAt", some (.num ⟨context.now, 0⟩))] })
  dbCallback (fun _ => .absent) result

end CreateGoal

namespace GetGoal

def handler (event : Event) : Handler := do
  let result ← dynamoDb (.get ⟨event.identity, event.pathParameters.id⟩)
  dbCallback stringifyBody result

end GetGoal

namespace ListGoals

def handler (event : Event) : Handler := do
  let result ← dynamoDb (.query ("userId", ":userId") [(":userId", .str event.identity)])
  dbCallback (fun data => stringifyBody (some (.arr data.items))) result

end ListGoals

namespace UpdateGoal

def orNull (v : JsVal) : Json := if truthy v then v.getD .null else .null

def handler (event : Event) : Handler := do
  let data ← jsonParse event.body
  let title ← prop "title" data
  let content ← prop "content" data
  let result ← dynamoDb (.update ⟨event.identity, event.pathParameters.id⟩
    [("title", ":title"), ("content", ":content")]
    [(":title", orNull title), (":content", orNull content)])
  dbCallback (fun _ => .absent) result

end UpdateGoal

namespace DeleteGoal

def handler (event : Event) : Handler := do
  let result ← dynamoDb (.delete ⟨event.identity, event.pathParameters.id⟩)
  dbCallback (fun _ => .absent) result

end DeleteGoal

inductive GoalFunction where
  | createGoal
  | getGoal
  | listGoals
  | updateGoal
  | deleteGoal
deriving DecidableEq

def GoalFunction.handler : GoalFunction → Event → Context → Handler
  | .createGoal => CreateGoal.handler
  | .getGoal => fun event _ => GetGoal.handler event
  | .listGoals => fun event _ => ListGoals.handler event
  | .updateGoal => fun event _ => UpdateGoal.handler event
  | .deleteGoal => fun event _ => DeleteGoal.handler event

/-- One invocation: `outcome` is the error its DynamoDB call fails with, if it fails. -/
structure Invocation where
  fn : GoalFunction
  event : Event
  context : Context
  outcome : Option AwsError

namespace Invocation

def handler (i : Invocation) : Handler := i.fn.handler i.event i.context

def user (i : Invocation) : String := i.event.identity

def key (i : Invocation) : Key := ⟨i.event.identity, i.event.pathParameters.id⟩

end Invocation

/-- What the invoker sees of an invocation: an exception, and the callbacks in order. -/
structure Outcome where
  thrown : Option JsError
  responses : List Response

def execCall (outcome : Option AwsError) : (c : Call) → Table × List Response → c.Answer × (Table × List Response)
  | .dynamoDb r, (t, rs) => ((exec outcome r t).1, ((exec outcome r t).2, rs))
  | .callback response, (t, rs) => ((), (t, rs ++ [response]))

def thrownBy : Except JsError Unit → Option JsError
  | .error e => some e
  | .ok _ => none

def invoke (i : Invocation) (t : Table) : Outcome × Table :=
  let r := i.handler.run.run (execCall i.outcome) (t, [])
  ({ thrown := thrownBy r.1, responses := r.2.2 }, r.2.1)

/-- `data.title` and `data.content` of the parsed request body. -/
def bodyFields (body : Option String) : Except JsError (JsVal × JsVal) := do
  let data ← jsonParse body
  return (← prop "title" data, ← prop "content" data)

def response {α : Type} (body : α → Body) : Except AwsError α → Response
  | .error error => ⟨500, corsHeaders, .error error⟩
  | .ok data => ⟨200, corsHeaders, body data⟩

def dbProgram (r : Request) (reply : r.Answer → Response) : Program (Except JsError Unit) :=
  .call (.dynamoDb r) fun result => .call (.callback (reply result)) fun _ => .ret (.ok ())

def createRequest (event : Event) (context : Context) (fields : JsVal × JsVal) : Request :=
  .put ⟨event.identity, context.awsRequestId,
    [("title", fields.1), ("content", fields.2), ("createdAt", some (.num ⟨context.now, 0⟩))]⟩

def updateRequest (event : Event) (fields : JsVal × JsVal) : Request :=
  .update ⟨event.identity, event.pathParameters.id⟩ [("title", ":title"), ("content", ":content")]
    [(":title", UpdateGoal.orNull fields.1), (":content", UpdateGoal.orNull fields.2)]

theorem lift_ok_bind {α : Type} (a : α) (f : α → Handler) :
    ((liftM (Except.ok a : Except JsError α) : ExceptT JsError Program α) >>= f) = f a := rfl

theorem bodyFields_bind (body : Option String) (k : JsVal → JsVal → Handler) :
    (do
      let data ← jsonParse body
      let title ← prop "title" data
      let content ← prop "content" data
      k title content : Handler).run =
    match bodyFields body with
    | .error e => .ret (.error e)
    | .ok fields => (k fields.1 fields.2).run := by
  simp only [bodyFields]
  cases jsonParse body with
  | error e => rfl
  | ok data =>
    rw [lift_ok_bind, ok_bind]
    cases prop "title" data with
    | error e => rfl
    | ok title =>
      rw [lift_ok_bind, ok_bind]
      cases prop "content" data with
      | error e => rfl
      | ok content => rfl

theorem CreateGoal.handler_eq (event : Event) (context : Context) : (handler event context).run =
    match bodyFields event.body with
    | .error e => .ret (.error e)
    | .ok fields => dbProgram (createRequest event context fields) (response fun _ => .absent) := by
  rw [handler, bodyFields_bind]
  cases bodyFields event.body with
  | error e => rfl
  | ok fields => exact congrArg (Proc.call _) (funext fun result => by cases result <;> rfl)

theorem UpdateGoal.handler_eq (event : Event) : (handler event).run =
    match bodyFields event.body with
    | .error e => .ret (.error e)
    | .ok fields => dbProgram (updateRequest event fields) (response fun _ => .absent) := by
  rw [handler, bodyFields_bind]
  cases bodyFields event.body with
  | error e => rfl
  | ok fields => exact congrArg (Proc.call _) (funext fun result => by cases result <;> rfl)

theorem GetGoal.handler_eq (event : Event) : (handler event).run =
    dbProgram (.get ⟨event.identity, event.pathParameters.id⟩) (response stringifyBody) :=
  congrArg (Proc.call _) (funext fun result => by cases result <;> rfl)

theorem ListGoals.handler_eq (event : Event) : (handler event).run =
    dbProgram (.query ("userId", ":userId") [(":userId", .str event.identity)])
      (response fun data : QueryOutput => stringifyBody (some (.arr data.items))) :=
  congrArg (Proc.call _) (funext fun result => by cases result <;> rfl)

theorem DeleteGoal.handler_eq (event : Event) : (handler event).run =
    dbProgram (.delete ⟨event.identity, event.pathParameters.id⟩) (response fun _ => .absent) :=
  congrArg (Proc.call _) (funext fun result => by cases result <;> rfl)

/-! ### What an invocation does -/

def failed (e : AwsError) : Outcome := ⟨none, [⟨500, corsHeaders, .error e⟩]⟩

def succeeded (body : Body) : Outcome := ⟨none, [⟨200, corsHeaders, body⟩]⟩

def crashed (e : JsError) : Outcome := ⟨some e, []⟩

def createdAttributes (fields : JsVal × JsVal) (now : Nat) : Attributes :=
  putAttributes ⟨"", "", [("title", fields.1), ("content", fields.2), ("createdAt", some (.num ⟨now, 0⟩))]⟩

def updatedAttributes (a : Attributes) (fields : JsVal × JsVal) : Attributes :=
  setAll a [("title", UpdateGoal.orNull fields.1), ("content", UpdateGoal.orNull fields.2)]

section
variable (event : Event) (context : Context) (outcome : Option AwsError) (t : Table)

theorem invoke_createGoal : invoke ⟨.createGoal, event, context, outcome⟩ t =
    match bodyFields event.body, outcome with
    | .error e, _ => (crashed e, t)
    | .ok _, some e => (failed e, t)
    | .ok fields, none => (succeeded .absent,
        t.insert ⟨event.identity, context.awsRequestId⟩ (createdAttributes fields context.now)) := by
  simp only [invoke, Invocation.handler, GoalFunction.handler, CreateGoal.handler_eq]
  cases bodyFields event.body <;> cases outcome <;> rfl

theorem invoke_updateGoal : invoke ⟨.updateGoal, event, context, outcome⟩ t =
    match bodyFields event.body, outcome with
    | .error e, _ => (crashed e, t)
    | .ok _, some e => (failed e, t)
    | .ok fields, none => (succeeded .absent,
        t.insert ⟨event.identity, event.pathParameters.id⟩ (updatedAttributes
          ((t.find? ⟨event.identity, event.pathParameters.id⟩).getD .empty) fields)) := by
  simp only [invoke, Invocation.handler, GoalFunction.handler, UpdateGoal.handler_eq]
  cases bodyFields event.body <;> cases outcome <;> rfl

theorem invoke_getGoal : invoke ⟨.getGoal, event, context, outcome⟩ t =
    match outcome with
    | some e => (failed e, t)
    | none => (succeeded (stringifyBody ((t.find? ⟨event.identity, event.pathParameters.id⟩).map
        (itemJson ⟨event.identity, event.pathParameters.id⟩))), t) := by
  cases outcome <;> rfl

theorem invoke_listGoals : invoke ⟨.listGoals, event, context, outcome⟩ t =
    match outcome with
    | some e => (failed e, t)
    | none => (succeeded (.text (Json.arr (queryOutput t event.identity).items).stringify), t) := by
  cases outcome <;> rfl

theorem invoke_deleteGoal : invoke ⟨.deleteGoal, event, context, outcome⟩ t =
    match outcome with
    | some e => (failed e, t)
    | none => (succeeded .absent, t.erase ⟨event.identity, event.pathParameters.id⟩) := by
  cases outcome <;> rfl

end

/-- The invocation gets to its DynamoDB call, and the call succeeds. -/
def Invocation.Completes (i : Invocation) : Prop :=
  i.outcome = none ∧ (i.fn = .createGoal ∨ i.fn = .updateGoal → ∃ fields, bodyFields i.event.body = .ok fields)

theorem Invocation.completes_iff (i : Invocation) (t : Table) :
    i.Completes ↔ ∃ body, (invoke i t).1 = succeeded body := by
  obtain ⟨fn, event, context, outcome⟩ := i
  cases outcome with
  | some e =>
    cases fn <;>
      simp only [Completes, reduceCtorEq, false_and, false_iff, not_exists, invoke_createGoal,
        invoke_updateGoal, invoke_getGoal, invoke_listGoals, invoke_deleteGoal] <;>
      intro body h <;> revert h
    case createGoal => cases bodyFields event.body <;> simp [failed, crashed, succeeded]
    case updateGoal => cases bodyFields event.body <;> simp [failed, crashed, succeeded]
    all_goals simp [failed, succeeded]
  | none =>
    cases fn with
    | createGoal =>
      rw [invoke_createGoal]
      cases h : bodyFields event.body <;> simp [Completes, h, crashed, succeeded]
    | updateGoal =>
      rw [invoke_updateGoal]
      cases h : bodyFields event.body <;> simp [Completes, h, crashed, succeeded]
    | getGoal => exact ⟨fun _ => ⟨_, rfl⟩, fun _ => ⟨rfl, by simp⟩⟩
    | listGoals => exact ⟨fun _ => ⟨_, rfl⟩, fun _ => ⟨rfl, by simp⟩⟩
    | deleteGoal => exact ⟨fun _ => ⟨_, rfl⟩, fun _ => ⟨rfl, by simp⟩⟩

/-- What an invocation does to the table: a completed create, update or delete writes one item, and
nothing else writes. -/
theorem Invocation.table_cases (i : Invocation) (t : Table) :
    ((invoke i t).2 = t ∧ ¬ (i.fn = .deleteGoal ∧ i.Completes)) ∨
    (∃ fields, i.fn = .createGoal ∧ i.Completes ∧ bodyFields i.event.body = .ok fields ∧ (invoke i t).2 =
      t.insert ⟨i.user, i.context.awsRequestId⟩ (createdAttributes fields i.context.now)) ∨
    (∃ fields, i.fn = .updateGoal ∧ i.Completes ∧ bodyFields i.event.body = .ok fields ∧ (invoke i t).2 =
      t.insert i.key (updatedAttributes ((t.find? i.key).getD .empty) fields)) ∨
    (i.fn = .deleteGoal ∧ i.Completes ∧ (invoke i t).2 = t.erase i.key) := by
  obtain ⟨fn, event, context, outcome⟩ := i
  cases fn with
  | createGoal =>
    rw [invoke_createGoal]
    cases h : bodyFields event.body with
    | error e => exact .inl ⟨rfl, by simp⟩
    | ok fields =>
      cases outcome with
      | some e => exact .inl ⟨rfl, by simp⟩
      | none => exact .inr (.inl ⟨fields, rfl, ⟨rfl, fun _ => ⟨_, h⟩⟩, rfl, rfl⟩)
  | updateGoal =>
    rw [invoke_updateGoal]
    cases h : bodyFields event.body with
    | error e => exact .inl ⟨rfl, by simp⟩
    | ok fields =>
      cases outcome with
      | some e => exact .inl ⟨rfl, by simp⟩
      | none => exact .inr (.inr (.inl ⟨fields, rfl, ⟨rfl, fun _ => ⟨_, h⟩⟩, rfl, rfl⟩))
  | getGoal => rw [invoke_getGoal]; cases outcome <;> exact .inl ⟨rfl, by simp⟩
  | listGoals => rw [invoke_listGoals]; cases outcome <;> exact .inl ⟨rfl, by simp⟩
  | deleteGoal =>
    rw [invoke_deleteGoal]
    cases outcome with
    | some e => exact .inl ⟨rfl, by simp [Completes]⟩
    | none => exact .inr (.inr (.inr ⟨rfl, ⟨rfl, by simp⟩, rfl⟩))

/-- The key that a CreateGoal, UpdateGoal or DeleteGoal writes. -/
def Invocation.target (i : Invocation) : Key :=
  if i.fn = .createGoal then ⟨i.user, i.context.awsRequestId⟩ else i.key

/-- The invocation puts, changes or deletes an item, and does so. -/
def Invocation.Writes (i : Invocation) : Prop :=
  i.Completes ∧ (i.fn = .createGoal ∨ i.fn = .updateGoal ∨ i.fn = .deleteGoal)

theorem find?_invoke_of_ne {i : Invocation} {k : Key} (hne : k ≠ i.target) (t : Table) :
    (invoke i t).2.find? k = t.find? k := by
  rcases i.table_cases t with ⟨h, -⟩ | ⟨fields, hfn, -, -, h⟩ | ⟨fields, hfn, -, -, h⟩ | ⟨hfn, -, h⟩ <;> rw [h]
  · rw [Invocation.target, if_pos hfn] at hne
    exact SortedMap.find?_insert_of_ne _ _ hne
  · rw [Invocation.target, hfn, if_neg (by decide)] at hne
    exact SortedMap.find?_insert_of_ne _ _ hne
  · rw [Invocation.target, hfn, if_neg (by decide)] at hne
    exact SortedMap.find?_erase_of_ne _ hne

theorem invoke_of_not_writes {i : Invocation} (h : ¬ i.Writes) (t : Table) : (invoke i t).2 = t := by
  rcases i.table_cases t with ⟨ht, -⟩ | ⟨_, hfn, hdone, -⟩ | ⟨_, hfn, hdone, -⟩ | ⟨hfn, hdone, -⟩
  · exact ht
  · exact absurd ⟨hdone, .inl hfn⟩ h
  · exact absurd ⟨hdone, .inr (.inl hfn)⟩ h
  · exact absurd ⟨hdone, .inr (.inr hfn)⟩ h

theorem find?_setAll_of_notMem (a : Attributes) {sets : List (String × Json)} {name : String}
    (h : name ∉ sets.map Prod.fst) : (setAll a sets).find? name = a.find? name := by
  induction sets generalizing a with
  | nil => rfl
  | cons e rest ih =>
    simp only [List.map_cons, List.mem_cons, not_or] at h
    rw [setAll, List.foldl_cons, ← setAll, ih _ h.2, SortedMap.find?_insert_of_ne _ _ h.1]

section
variable (fields : JsVal × JsVal)

@[simp] theorem find?_updated_title (a : Attributes) :
    (updatedAttributes a fields).find? "title" = some (UpdateGoal.orNull fields.1) := by
  simp [updatedAttributes, setAll, SortedMap.find?_insert]

@[simp] theorem find?_updated_content (a : Attributes) :
    (updatedAttributes a fields).find? "content" = some (UpdateGoal.orNull fields.2) := by
  simp [updatedAttributes, setAll]

theorem find?_updated (a : Attributes) {name : String} (ht : name ≠ "title") (hc : name ≠ "content") :
    (updatedAttributes a fields).find? name = a.find? name :=
  find?_setAll_of_notMem a (by simp [ht, hc])

@[simp] theorem find?_created_title (now : Nat) :
    (createdAttributes fields now).find? "title" = fields.1 := by
  obtain ⟨_ | title, _ | content⟩ := fields <;>
    simp [createdAttributes, putAttributes, definedMembers, setAll, SortedMap.find?_insert]

@[simp] theorem find?_created_content (now : Nat) :
    (createdAttributes fields now).find? "content" = fields.2 := by
  obtain ⟨_ | title, _ | content⟩ := fields <;>
    simp [createdAttributes, putAttributes, definedMembers, setAll, SortedMap.find?_insert]

@[simp] theorem find?_created_createdAt (now : Nat) :
    (createdAttributes fields now).find? "createdAt" = some (.num ⟨now, 0⟩) := by
  obtain ⟨_ | title, _ | content⟩ := fields <;>
    simp [createdAttributes, putAttributes, definedMembers, setAll]

end

abbrev runAll (h : List Invocation) (t : Table) : List (Invocation × Outcome) × Table :=
  Machine.runAll invoke h t

abbrev tableAfter (h : List Invocation) (t : Table) : Table := Machine.after invoke h t

end FullStack
