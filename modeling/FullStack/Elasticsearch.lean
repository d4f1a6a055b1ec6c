import FullStack.Lib.JsonRoundTrip
import FullStack.Lib.SortedMap
import Mathlib.Data.String.Basic

/-!
# The Elasticsearch index

The index of the search extension: documents under their URLs. `Index.write` performs the requests of
UpdateSearchCluster, `Index.search` answers those of the search API: it evaluates the query in the
request body on every document (`evalQuery`) and returns the best ranked hits. How a text is matched
(`Engine`) and how matches are ranked (`Ranking`) are parameters.
-/

namespace FullStack

abbrev Index := SortedMap String Json

inductive PyError where
  | keyError
  | typeError
  | requestException
deriving DecidableEq

structure HttpResponse where
  statusCode : Nat
  text : String

inductive EsWrite where
  | delete (url : String)
  | put (url : String) (json : Json)

def Index.write (index : Index) : EsWrite → HttpResponse × Index
  | .delete url => (⟨if (index.find? url).isSome then 200 else 404, ""⟩, index.erase url)
  | .put url json => (⟨if (index.find? url).isSome then 200 else 201, ""⟩, index.insert url json)

def fieldName (path name : String) : String := if path = "" then name else path ++ "." ++ name

mutual
/-- The text fields of a document under their dotted names. -/
def textFields (path : String) : Json → List (String × String)
  | .str s => [(path, s)]
  | .arr vs => elementsFields path vs
  | .obj ms => membersFields path ms
  | _ => []

def elementsFields (path : String) : List Json → List (String × String)
  | [] => []
  | v :: vs => textFields path v ++ elementsFields path vs

def membersFields (path : String) : List (String × Json) → List (String × String)
  | [] => []
  | (k, v) :: ms => textFields (fieldName path k) v ++ membersFields path ms
end

def Owned (u : String) (document : Json) : Prop := ("userId.S", u) ∈ textFields "" document

instance (u : String) (document : Json) : Decidable (Owned u document) := by
  unfold Owned
  infer_instance

/-- Text analysis: whether the value of a field matches a query text. A match on `userId.S` is exact. -/
structure Engine where
  textMatch : (field text value : String) → Bool
  userId_exact : ∀ u value, textMatch "userId.S" u value = true → value = u

/-- Some order of the matches, by a score that the clients do not control. -/
structure Ranking where
  order : List (String × Json) → List (String × Json)
  perm : ∀ l, (order l).Perm l

def fieldMatches (engine : Engine) (document : Json) (field text : String) : Bool :=
  (textFields "" document).any fun e => e.1 = field && engine.textMatch field text e.2

def evalMatch (engine : Engine) (document : Json) : List (String × Json) → Option Bool
  | [(field, .str text)] => some (fieldMatches engine document field text)
  | _ => none

def evalMultiMatch (engine : Engine) (document : Json) (body : List (String × Json)) : Option Bool :=
  match Json.lookup "query" body, Json.lookup "fields" body with
  | some (.str text), some (.arr fields) => do
    let names ← fields.mapM fun f => match f with
      | .str name => some name
      | _ => none
    return names.any fun name => fieldMatches engine document name text
  | _, _ => none

mutual
/-- Whether the document matches the query; `none` if the query is malformed. -/
def evalQuery (engine : Engine) (document : Json) : Json → Option Bool
  | .obj [(kind, .obj body)] =>
    if kind = "bool" then evalBool engine document body
    else if kind = "match" then evalMatch engine document body
    else if kind = "multi_match" then evalMultiMatch engine document body
    else none
  | _ => none

def evalBool (engine : Engine) (document : Json) : List (String × Json) → Option Bool
  | [] => some true
  | (occur, .arr queries) :: rest =>
    if occur = "must" then do
      return (← evalQueries engine document queries) && (← evalBool engine document rest)
    else none
  | (occur, query) :: rest =>
    if occur = "must" then do
      return (← evalQuery engine document query) && (← evalBool engine document rest)
    else none

def evalQueries (engine : Engine) (document : Json) : List Json → Option Bool
  | [] => some true
  | query :: rest => do
    return (← evalQuery engine document query) && (← evalQueries engine document rest)
end

/-- The value of `size`, which is 10 by default. -/
def sizeOf : Option Json → Option Nat
  | none => some 10
  | some (.num ⟨.ofNat n, 0⟩) => some n
  | _ => none

def queryMatches (engine : Engine) (query : Json) (document : Json) : Bool :=
  evalQuery engine document query = some true

def hitJson (hit : String × Json) : Json := .obj [("_id", .str hit.1), ("_source", hit.2)]

def searchResult (total : Nat) (hits : List (String × Json)) : Json :=
  .obj [("hits", .obj [("total", .num ⟨total, 0⟩), ("hits", .arr (hits.map hitJson))])]

def malformed : HttpResponse := ⟨400, (Json.obj [("error", .str "parsing_exception")]).stringify⟩

/-- The answer to a search with the body `data`: the `size` best ranked matches. -/
def Index.search (engine : Engine) (ranking : Ranking) (index : Index) (data : String) : HttpResponse :=
  match Json.parse data with
  | none => malformed
  | some body =>
    match sizeOf (body.member "size"), body.member "query" with
    | some size, some query =>
      if (evalQuery engine .null query).isNone then malformed
      else
        let matching := index.entries.filter fun e => queryMatches engine query e.2
        ⟨200, (searchResult matching.length ((ranking.order matching).take size)).stringify⟩
    | _, _ => malformed

def hitDocuments (text : String) : List Json :=
  match (Json.parse text).bind fun v => (v.member "hits").bind (Json.member "hits") with
  | some (.arr hits) => hits.filterMap (Json.member "_source")
  | _ => []

theorem hitDocuments_searchResult (total : Nat) (hits : List (String × Json)) :
    hitDocuments (searchResult total hits).stringify = hits.map Prod.snd := by
  have hsource : ∀ hit, Json.member "_source" (hitJson hit) = some hit.2 := fun hit => rfl
  rw [hitDocuments, Json.parse_stringify]
  change (hits.map hitJson).filterMap (Json.member "_source") = _
  rw [List.filterMap_map, ← List.filterMap_eq_map]
  exact congrArg (hits.filterMap ·) (funext hsource)

end FullStack
