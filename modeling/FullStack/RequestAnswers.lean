import FullStack.ApiAnswer
import FullStack.SearchCluster

/-!
# Whether a request is answered

`CreateGoal` and `UpdateGoal` parse the request body and read fields of it before they make their call, and
the search handler subscripts the query string; none of them catches what that throws. So a request is
answered exactly if there is something to read: a body that is JSON other than `null`, a parameter `q`
(`answered_iff`). A request that is not answered with 200 leaves the table alone.
-/

namespace FullStack

namespace RequestAnswers

/-- An authenticated request, with what the service behind the handler answers: the error that the DynamoDB
call fails with, or the response of Elasticsearch. -/
inductive AuthenticatedRequest where
  | createGoal (event : Event) (context : Context) (outcome : Option AwsError)
  | updateGoal (event : Event) (context : Context) (outcome : Option AwsError)
  | search (event : SearchCluster.Event) (outcome : Except PyError HttpResponse)

structure Delivered where
  throws : Bool
  responses : List Response
  table : Table

def deliver (i : Invocation) (t : Table) : Delivered :=
  ⟨(invoke i t).1.thrown.isSome, (invoke i t).1.responses, (invoke i t).2⟩

/-- What the search handler returns or raises. -/
def searchResponse (esEndpoint : String) (event : SearchCluster.Event) (outcome : Except PyError HttpResponse) :
    Except PyError Response :=
  ((SearchCluster.handler esEndpoint event).run.run (fun _ s => (outcome, s)) ()).1

namespace AuthenticatedRequest

def run (esEndpoint : String) (t : Table) : AuthenticatedRequest → Delivered
  | .createGoal event context outcome => deliver ⟨.createGoal, event, context, outcome⟩ t
  | .updateGoal event context outcome => deliver ⟨.updateGoal, event, context, outcome⟩ t
  | .search event outcome =>
    match searchResponse esEndpoint event outcome with
    | .ok response => ⟨false, [response], t⟩
    | .error _ => ⟨true, [], t⟩

/-- What the handler reads of the request is there, and Elasticsearch answers. -/
def Readable : AuthenticatedRequest → Prop
  | .createGoal event _ _ => ∃ body v, event.body = some body ∧ Json.parse body = some v ∧ v ≠ .null
  | .updateGoal event _ _ => ∃ body v, event.body = some body ∧ Json.parse body = some v ∧ v ≠ .null
  | .search event outcome =>
    (∃ items q, event.queryStringParameters = some items ∧ items.lookup "q" = some q) ∧ outcome.isOk = true

end AuthenticatedRequest

/-- One response object is delivered, and the table is changed only if its status is 200. -/
def Answered (t : Table) (d : Delivered) : Prop :=
  d.throws = false ∧ ∃ response, d.responses = [response] ∧ (d.table ≠ t → response.statusCode = 200)

theorem prop_of_ne_null (name : String) {v : Json} (h : v ≠ .null) : prop name (some v) = .ok (v.member name) := by
  cases v with
  | null => exact absurd rfl h
  | _ => rfl

/-- The fields can be read exactly if the body is JSON other than `null`; an absent body reads as `null`. -/
theorem bodyFields_ok_iff (body : Option String) :
    (∃ fields, bodyFields body = .ok fields) ↔ ∃ s v, body = some s ∧ Json.parse s = some v ∧ v ≠ .null := by
  constructor
  · rintro ⟨fields, h⟩
    obtain ⟨data, hdata, h⟩ := bind_eq_ok.1 h
    obtain ⟨title, htitle, -⟩ := bind_eq_ok.1 h
    unfold jsonParse at hdata
    cases body with
    | none =>
      cases hdata
      cases htitle
    | some s =>
      rw [Option.getD_some] at hdata
      cases hv : Json.parse s with
      | none => rw [hv] at hdata; cases hdata
      | some v =>
        rw [hv] at hdata
        cases hdata
        refine ⟨s, v, rfl, hv, ?_⟩
        rintro rfl
        cases htitle
  · rintro ⟨s, v, rfl, hv, hnull⟩
    refine ⟨(v.member "title", v.member "content"), ?_⟩
    unfold bodyFields jsonParse
    rw [Option.getD_some, hv]
    simp only [ok_bind, prop_of_ne_null _ hnull]
    rfl

theorem subscript_ok_iff (d : Option (List (String × String))) (k : String) :
    (∃ v, subscript d k = .ok v) ↔ ∃ items v, d = some items ∧ items.lookup k = some v := by
  unfold subscript
  cases d with
  | none => simp
  | some items => cases hk : items.lookup k <;> simp [hk]

theorem answered_succeeded (t t' : Table) (body : Body) : Answered t ⟨false, (succeeded body).responses, t'⟩ :=
  ⟨rfl, _, rfl, fun _ => rfl⟩

theorem answered_failed (t : Table) (e : AwsError) : Answered t ⟨false, (failed e).responses, t⟩ :=
  ⟨rfl, _, rfl, fun h => absurd rfl h⟩

theorem not_answered_of_throws {t : Table} {d : Delivered} (h : d.throws = true) : ¬ Answered t d := fun ha =>
  Bool.false_ne_true (ha.1.symm.trans h)

section
variable (event : Event) (context : Context) (outcome : Option AwsError) (t : Table)

theorem answered_createGoal_iff : Answered t (deliver ⟨.createGoal, event, context, outcome⟩ t) ↔
    ∃ fields, bodyFields event.body = .ok fields := by
  unfold deliver
  rw [invoke_createGoal]
  cases bodyFields event.body with
  | error e => exact iff_of_false (not_answered_of_throws rfl) (by simp)
  | ok fields =>
    cases outcome with
    | none => exact iff_of_true (answered_succeeded t _ _) ⟨_, rfl⟩
    | some e => exact iff_of_true (answered_failed t e) ⟨_, rfl⟩

theorem answered_updateGoal_iff : Answered t (deliver ⟨.updateGoal, event, context, outcome⟩ t) ↔
    ∃ fields, bodyFields event.body = .ok fields := by
  unfold deliver
  rw [invoke_updateGoal]
  cases bodyFields event.body with
  | error e => exact iff_of_false (not_answered_of_throws rfl) (by simp)
  | ok fields =>
    cases outcome with
    | none => exact iff_of_true (answered_succeeded t _ _) ⟨_, rfl⟩
    | some e => exact iff_of_true (answered_failed t e) ⟨_, rfl⟩

end

section
variable (esEndpoint : String) {event : SearchCluster.Event} (outcome : Except PyError HttpResponse)

theorem searchResponse_of_error {e : PyError} (h : subscript event.queryStringParameters "q" = .error e) :
    searchResponse esEndpoint event outcome = .error e := by
  rw [searchResponse, SearchCluster.handler, h]
  rfl

theorem searchResponse_of_ok {q : String} (h : subscript event.queryStringParameters "q" = .ok q) :
    searchResponse esEndpoint event outcome = outcome.map fun r => ⟨r.statusCode, corsHeaders, .text r.text⟩ := by
  rw [searchResponse, SearchCluster.handler, h]
  cases outcome <;> rfl

theorem answered_search_iff (t : Table) :
    Answered t (AuthenticatedRequest.run esEndpoint t (.search event outcome)) ↔
      (∃ q, subscript event.queryStringParameters "q" = .ok q) ∧ outcome.isOk = true := by
  unfold AuthenticatedRequest.run
  cases h : subscript event.queryStringParameters "q" with
  | error e =>
    simp only [searchResponse_of_error esEndpoint outcome h]
    exact iff_of_false (not_answered_of_throws rfl) (by simp)
  | ok q =>
    simp only [searchResponse_of_ok esEndpoint outcome h]
    cases outcome with
    | error e => exact iff_of_false (not_answered_of_throws rfl) (fun h => Bool.false_ne_true h.2)
    | ok r => exact iff_of_true ⟨rfl, _, rfl, fun h => absurd rfl h⟩ ⟨⟨q, rfl⟩, rfl⟩

end

/-- A request is answered exactly if its handler finds what it reads. -/
theorem answered_iff (esEndpoint : String) (request : AuthenticatedRequest) (t : Table) :
    Answered t (request.run esEndpoint t) ↔ request.Readable := by
  cases request with
  | createGoal event context outcome =>
    exact (answered_createGoal_iff event context outcome t).trans (bodyFields_ok_iff event.body)
  | updateGoal event context outcome =>
    exact (answered_updateGoal_iff event context outcome t).trans (bodyFields_ok_iff event.body)
  | search event outcome =>
    rw [answered_search_iff, subscript_ok_iff]
    rfl

/-- A POST without a body. -/
theorem emptyPost_not_answered :
    ¬ Answered .empty (AuthenticatedRequest.run "es" .empty (.createGoal ⟨"u", ⟨""⟩, none⟩ ⟨"r", 0⟩ none)) :=
  not_answered_of_throws rfl

end RequestAnswers

end FullStack
