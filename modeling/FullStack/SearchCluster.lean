import FullStack.Elasticsearch
import FullStack.GoalsApi

/-!
# The search handler

`searchCluster.py` builds a query that has two `must` entries in one dict literal. Python keeps the
last entry of a repeated key, so the clause on `userId.S` never reaches Elasticsearch
(`searchQuery_eq`) and a user is shown the matching documents of every user
(`search_isolated_iff`). With both clauses in one `must` the hits would be the caller's
(`owned_of_both_clauses`).
-/

namespace FullStack

/-- `d[k] = v`. -/
def setItem (d : List (String × Json)) (k : String) (v : Json) : List (String × Json) :=
  match d with
  | [] => [(k, v)]
  | (k', v') :: rest => if k' = k then (k, v) :: rest else (k', v') :: setItem rest k v

/-- The dict of a literal: its items are set in the order written. -/
def dict (items : List (String × Json)) : Json := .obj (items.foldl (fun d e => setItem d e.1 e.2) [])

/-- `d[k]` of a dict that may be `None`. -/
def subscript (d : Option (List (String × String))) (k : String) : Except PyError String :=
  match d with
  | none => .error .typeError
  | some items =>
    match items.lookup k with
    | some v => .ok v
    | none => .error .keyError

namespace SearchCluster

/-- `identity` is `requestContext.identity.cognitoIdentityId`. -/
structure Event where
  identity : String
  queryStringParameters : Option (List (String × String))

/-- `requests.get(url, headers=headers, data=data)`. -/
structure HttpGet where
  url : String
  headers : List (String × String)
  data : String

abbrev Handler := ExceptT PyError (Proc HttpGet fun _ => Except PyError HttpResponse)

def url (esEndpoint : String) : String := "https://" ++ esEndpoint ++ "/_search"

def userClause (userId : String) : Json := dict [("match", dict [("userId.S", .str userId)])]

def titleClause (q : String) : Json :=
  dict [("multi_match", dict [("query", .str q), ("fields", .arr [.str "title.S"])])]

def searchQuery (userId q : String) : Json :=
  dict [("size", .num ⟨25, 0⟩),
    ("query", dict [("bool", dict [("must", userClause userId), ("must", titleClause q)])])]

def get (request : HttpGet) : Handler HttpResponse := ExceptT.mk (Proc.perform request)

def handler (esEndpoint : String) (event : Event) : Handler Response := do
  let q ← subscript event.queryStringParameters "q"
  let query := searchQuery event.identity q
  let r ← get
    { url := url esEndpoint, headers := [("Content-Type", "application/json")], data := query.stringify }
  return { statusCode := r.statusCode, headers := corsHeaders, body := .text r.text }

/-- Elasticsearch as the handler reaches it; a search changes nothing. -/
def execGet (engine : Engine) (ranking : Ranking) (request : HttpGet) (index : Index) :
    Except PyError HttpResponse × Index :=
  (.ok (index.search engine ranking request.data), index)

def hits (engine : Engine) (ranking : Ranking) (esEndpoint : String) (index : Index) (event : Event) : List Json :=
  match ((handler esEndpoint event).run.run (execGet engine ranking) index).1 with
  | .ok { body := .text text, .. } => hitDocuments text
  | _ => []

/-- The second `must` replaces the first. -/
theorem searchQuery_eq (userId q : String) : searchQuery userId q =
    .obj [("size", .num ⟨25, 0⟩), ("query", .obj [("bool", .obj [("must", titleClause q)])])] := by
  rfl

theorem titleClause_eq (q : String) : titleClause q =
    .obj [("multi_match", .obj [("query", .str q), ("fields", .arr [.str "title.S"])])] := by
  rfl

section
variable (engine : Engine) (q : String)

def titleMatches (document : Json) : Bool := fieldMatches engine document "title.S" q

theorem evalQuery_titleClause (document : Json) :
    evalQuery engine document (titleClause q) = some (titleMatches engine q document) := by
  simp [titleClause_eq, titleMatches, evalQuery, evalMultiMatch, Json.lookup]

/-- The query that arrives at Elasticsearch selects by title alone. -/
theorem evalQuery_sent (document : Json) :
    evalQuery engine document (.obj [("bool", .obj [("must", titleClause q)])]) =
      some (titleMatches engine q document) := by
  have h := evalQuery_titleClause engine q document
  rw [titleClause_eq] at h ⊢
  simp [evalQuery, evalBool] at h ⊢
  exact h

theorem owned_of_both_clauses {u : String} {document : Json}
    (h : queryMatches engine (.obj [("bool", .obj [("must", .arr [userClause u, titleClause q])])]) document) :
    Owned u document := by
  have hu : evalQuery engine document (userClause u) = some (fieldMatches engine document "userId.S" u) := rfl
  have ht := evalQuery_titleClause engine q document
  simp [queryMatches, evalQuery, evalBool, evalQueries, hu, ht] at h
  obtain ⟨⟨field, value⟩, he, hmatch⟩ := List.any_eq_true.1 h.1
  simp only [Bool.and_eq_true, decide_eq_true_eq] at hmatch
  obtain ⟨rfl, hmatch⟩ := hmatch
  obtain rfl := engine.userId_exact u value hmatch
  exact he

variable (u : String)

theorem search_sent (ranking : Ranking) (index : Index) :
    index.search engine ranking (searchQuery u q).stringify =
      ⟨200, (searchResult (index.entries.filter fun e => titleMatches engine q e.2).length
        ((ranking.order (index.entries.filter fun e => titleMatches engine q e.2)).take 25)).stringify⟩ := by
  rw [Index.search, Json.parse_stringify, searchQuery_eq]
  change (if (evalQuery engine .null (.obj [("bool", .obj [("must", titleClause q)])])).isNone then _ else _) = _
  simp [queryMatches, evalQuery_sent]

variable {q : String} {event : Event} (hq : subscript event.queryStringParameters "q" = .ok q) (ranking : Ranking)
  (esEndpoint : String) (index : Index)

include hq in
theorem handler_run : ((handler esEndpoint event).run.run (execGet engine ranking) index).1 =
    .ok ⟨(index.search engine ranking (searchQuery event.identity q).stringify).statusCode, corsHeaders,
      .text (index.search engine ranking (searchQuery event.identity q).stringify).text⟩ := by
  rw [handler, hq]
  rfl

include hq in
/-- The hits are the 25 best ranked documents whose title matches, whoever owns them. -/
theorem hits_eq : hits engine ranking esEndpoint index event =
    ((ranking.order (index.entries.filter fun e => titleMatches engine q e.2)).take 25).map Prod.snd := by
  rw [hits, handler_run engine hq, search_sent]
  exact hitDocuments_searchResult _ _

theorem hits_eq_nil {e : PyError} (he : subscript event.queryStringParameters "q" = .error e) :
    hits engine ranking esEndpoint index event = [] := by
  rw [hits, handler, he]
  rfl

end

def Ranking.first (e : String × Json) : Ranking where
  order l := if e ∈ l then e :: l.erase e else l
  perm l := by
    split_ifs with h
    · exact (List.perm_cons_erase h).symm
    · exact .refl l

theorem Ranking.order_first {e : String × Json} {l : List (String × Json)} (h : e ∈ l) :
    (Ranking.first e).order l = e :: l.erase e := if_pos h

/-- Whatever the ranking, the caller is shown documents of the caller only: exactly when no document of
another user has a title that matches the query. -/
theorem search_isolated_iff (engine : Engine) (esEndpoint : String) (index : Index) (event : Event) :
    (∀ ranking, ∀ d ∈ hits engine ranking esEndpoint index event, Owned event.identity d) ↔
      ∀ q, subscript event.queryStringParameters "q" = .ok q →
        ∀ e ∈ index.entries, titleMatches engine q e.2 → Owned event.identity e.2 := by
  cases hsub : subscript event.queryStringParameters "q" with
  | error err =>
    refine iff_of_true (fun ranking d hd => ?_) nofun
    rw [hits_eq_nil engine ranking esEndpoint index hsub] at hd
    cases hd
  | ok q =>
    simp only [hits_eq engine hsub, Except.ok.injEq, forall_eq']
    constructor
    · intro h e he ht
      have hmem : e ∈ index.entries.filter fun e => titleMatches engine q e.2 := List.mem_filter.2 ⟨he, ht⟩
      refine h (Ranking.first e) e.2 (List.mem_map_of_mem (f := Prod.snd) ?_)
      rw [Ranking.order_first hmem]
      exact List.mem_cons_self
    · intro h ranking d hd
      obtain ⟨e, he, rfl⟩ := List.mem_map.1 hd
      obtain ⟨hmem, ht⟩ := List.mem_filter.1 ((ranking.perm _).mem_iff.1 (List.mem_of_mem_take he))
      exact h e hmem ht

def exactEngine : Engine := ⟨fun _ text value => text = value, fun _ _ h => (of_decide_eq_true h).symm⟩

def otherUserIndex : Index :=
  SortedMap.empty.insert "v-g" (.obj [("userId", .obj [("S", .str "v")]), ("goalId", .obj [("S", .str "g")]),
    ("title", .obj [("S", .str "run")])])

/-- The user `u` is shown a document of the user `v`. -/
theorem hits_otherUser :
    ¬ ∀ d ∈ hits exactEngine ⟨id, .refl⟩ "es" otherUserIndex ⟨"u", some [("q", "run")]⟩, Owned "u" d := by
  rw [hits_eq exactEngine (q := "run") rfl]
  decide +kernel

end SearchCluster

end FullStack
