import FullStack.Lib.JsonAscii
import FullStack.SearchCluster
import FullStack.UpdateSearchCluster

/-!
# The bodies of the requests to Elasticsearch

Both Python functions send text: the search handler calls `json.dumps` itself, and `requests` does so for the
document of a `put`. Whatever a user types into the search or into a goal, the text is ASCII and is read as the
value that was meant (`sends_query`, `receive_request`), so both behave as if values were sent
(`bodies_exact`).
-/

namespace FullStack

namespace SearchBodies

open SearchCluster (searchQuery get execGet)
open UpdateSearchCluster (StreamRecord)

def handlerWith (write : Json → String) (esEndpoint : String) (event : SearchCluster.Event) :
    SearchCluster.Handler Response := do
  let q ← subscript event.queryStringParameters "q"
  let query := searchQuery event.identity q
  let r ← get
    { url := SearchCluster.url esEndpoint, headers := [("Content-Type", "application/json")], data := write query }
  return { statusCode := r.statusCode, headers := corsHeaders, body := .text r.text }

/-- `data=json.dumps(query)`. -/
def handler (esEndpoint : String) (event : SearchCluster.Event) : SearchCluster.Handler Response :=
  handlerWith Json.dumps esEndpoint event

section
variable (write : Json → String) (esEndpoint : String) (event : SearchCluster.Event)

theorem handlerWith_run : (handlerWith write esEndpoint event).run =
    match subscript event.queryStringParameters "q" with
    | .error e => .ret (.error e)
    | .ok q => .call
        ⟨SearchCluster.url esEndpoint, [("Content-Type", "application/json")], write (searchQuery event.identity q)⟩
        fun answer => .ret (answer.map fun r => ⟨r.statusCode, corsHeaders, .text r.text⟩) := by
  rw [handlerWith]
  cases subscript event.queryStringParameters "q" with
  | error e => rfl
  | ok q =>
    refine congrArg (Proc.call _) (funext fun answer => ?_)
    cases answer <;> rfl

theorem search_congr {data data' : String} (h : Json.parse data = Json.parse data') (engine : Engine)
    (ranking : Ranking) (index : Index) : index.search engine ranking data = index.search engine ranking data' := by
  rw [Index.search, Index.search, h]

theorem run_handlerWith (hwrite : ∀ v, Json.parse (write v) = some v) (engine : Engine) (ranking : Ranking)
    (index : Index) : (handlerWith write esEndpoint event).run.run (execGet engine ranking) index =
      (SearchCluster.handler esEndpoint event).run.run (execGet engine ranking) index := by
  have hplain : SearchCluster.handler esEndpoint event = handlerWith Json.stringify esEndpoint event := rfl
  rw [hplain, handlerWith_run, handlerWith_run]
  cases subscript event.queryStringParameters "q" with
  | error e => rfl
  | ok q =>
    have hparse : Json.parse (write (searchQuery event.identity q)) =
        Json.parse (searchQuery event.identity q).stringify := by
      rw [hwrite, Json.parse_stringify]
    have hanswer := search_congr hparse engine ranking index
    simp only [Proc.run, execGet, hanswer]

/-- The body is ASCII and says what was asked, whatever letters the text has. -/
theorem sends_query : (handler esEndpoint event).run.All fun request =>
    Json.Ascii request.data.toList ∧ ∃ q, subscript event.queryStringParameters "q" = .ok q ∧
      Json.parse request.data = some (searchQuery event.identity q) := by
  rw [handler, handlerWith_run]
  cases hsub : subscript event.queryStringParameters "q" with
  | error e => exact .ret _
  | ok q =>
    refine .call ⟨Json.ascii_dumps _, q, rfl, Json.parse_dumps _⟩ fun answer => ?_
    exact .ret _

end

/-- A write as `requests` sends it. -/
inductive EsRequest where
  | delete (url : String)
  | put (url body : String)

def request : EsWrite → EsRequest
  | .delete url => .delete url
  | .put url document => .put url document.dumps

def EsRequest.body : EsRequest → String
  | .delete _ => ""
  | .put _ body => body

/-- Elasticsearch reads the body; it stores nothing if the body is no JSON. -/
def receive (index : Index) : EsRequest → HttpResponse × Index
  | .delete url => index.write (.delete url)
  | .put url body =>
    match Json.parse body with
    | some document => index.write (.put url document)
    | none => (malformed, index)

theorem receive_request (index : Index) (w : EsWrite) : receive index (request w) = index.write w := by
  cases w with
  | delete url => rfl
  | put url document => rw [request, receive, Json.parse_dumps]

theorem ascii_request (w : EsWrite) : Json.Ascii (request w).body.toList := by
  cases w with
  | delete url => exact Json.ascii_nil
  | put url document => exact Json.ascii_dumps document

/-- The requests of an invocation, performed by `perform`; the front of the list says which of them get no
answer. -/
def execWith (perform : Index → EsWrite → HttpResponse × Index) (w : EsWrite) (state : List Bool × Index) :
    Except PyError HttpResponse × List Bool × Index :=
  if state.1.head? = some true then (.error .requestException, state.1.tail, state.2)
  else (.ok (perform state.2 w).1, state.1.tail, (perform state.2 w).2)

/-- What the handlers do when Elasticsearch is sent texts is what they do when it is sent values. -/
structure Exact (engine : Engine) (ranking : Ranking) (esEndpoint : String) : Prop where
  query : ∀ event, (handler esEndpoint event).run.All fun request =>
    Json.Ascii request.data.toList ∧ ∃ q, subscript event.queryStringParameters "q" = .ok q ∧
      Json.parse request.data = some (searchQuery event.identity q)
  search : ∀ event index, (handler esEndpoint event).run.run (execGet engine ranking) index =
    (SearchCluster.handler esEndpoint event).run.run (execGet engine ranking) index
  ascii : ∀ w, Json.Ascii (request w).body.toList
  index : ∀ (url : String) (records : List StreamRecord) (state : List Bool × Index),
    (UpdateSearchCluster.handler url records).run.run (execWith fun index w => receive index (request w)) state =
      (UpdateSearchCluster.handler url records).run.run (execWith Index.write) state

theorem bodies_exact (engine : Engine) (ranking : Ranking) (esEndpoint : String) :
    Exact engine ranking esEndpoint where
  query event := sends_query esEndpoint event
  search event index := run_handlerWith Json.dumps esEndpoint event Json.parse_dumps engine ranking index
  ascii w := ascii_request w
  index url records state := by
    have hperform : (fun index w => receive index (request w)) = Index.write :=
      funext fun index => funext fun w => receive_request index w
    rw [hperform]

end SearchBodies

end FullStack
