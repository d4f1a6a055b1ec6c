import FullStack.Js
import FullStack.Lib.SortedMap
import Mathlib.Data.List.DropRight
import Mathlib.Data.String.Basic

/-!
# The goals table

The DynamoDB table of the template: partition key `userId`, sort key `goalId`, both strings. `exec`
performs one DocumentClient call: it applies with the documented semantics, or fails with an error
and leaves the table alone; which of the two is an input. UpdateItem without a condition creates an
absent item, and one Query call returns at most 1 MB of a partition (`takePage`).
-/

namespace FullStack

structure Key where
  userId : String
  goalId : String
deriving DecidableEq

theorem Key.toLex_injective : Function.Injective fun k : Key => toLex (k.userId, k.goalId) := by
  rintro ⟨u, g⟩ ⟨u', g'⟩ h
  cases h
  rfl

/-- Partitions in order, each in sort-key order. -/
instance : LinearOrder Key := LinearOrder.lift' _ Key.toLex_injective

/-- The attributes of an item other than its key. -/
abbrev Attributes := SortedMap String Json

abbrev Table := SortedMap Key Attributes

def itemJson (k : Key) (a : Attributes) : Json :=
  .obj (("userId", .str k.userId) :: ("goalId", .str k.goalId) :: a.entries)

theorem lookup_entries (a : Attributes) (name : String) : Json.lookup name a.entries = a.find? name := by
  obtain ⟨l, hl⟩ := a
  show Json.lookup name l = SortedMap.assoc name l
  induction l with
  | nil => rfl
  | cons e rest ih =>
    obtain ⟨name', v⟩ := e
    obtain ⟨hlt, hrest⟩ := List.pairwise_cons.1 hl
    rw [Json.lookup, SortedMap.assoc, ih hrest]
    rcases eq_or_ne name name' with rfl | hne
    · have hnone : SortedMap.assoc name rest = none := by
        refine Option.eq_none_iff_forall_ne_some.2 fun w hw => ?_
        exact lt_irrefl name (hlt _ ((SortedMap.assoc_eq_some_iff hrest name w).1 hw))
      rw [hnone, if_pos rfl, Option.none_or]
    · rw [if_neg hne.symm, if_neg hne, Option.or_none]

theorem member_itemJson {k : Key} {a : Attributes} {name : String} (hu : name ≠ "userId") (hg : name ≠ "goalId") :
    (itemJson k a).member name = a.find? name := by
  rw [itemJson, Json.member, Json.lookup, Json.lookup, lookup_entries, if_neg hg.symm, if_neg hu.symm, Option.or_none,
    Option.or_none]

/-- An AWS error object: its enumerable properties. -/
structure AwsError where
  properties : List (String × Json)

/-- `params.Item` of a put; a member that is `undefined` is dropped. -/
structure PutItem where
  userId : String
  goalId : String
  attributes : List (String × JsVal)

/-- A DocumentClient call with its `params`. An `UpdateExpression` is its list of `SET` clauses
`name = :placeholder`, a `KeyConditionExpression` its one equation. -/
inductive Request where
  | put (item : PutItem)
  | get (key : Key)
  | query (keyCondition : String × String) (values : List (String × Json))
  | update (key : Key) (set : List (String × String)) (values : List (String × Json))
  | delete (key : Key)

structure QueryOutput where
  items : List Json
  lastEvaluatedKey : Option Key

/-- What the callback of a call receives: an error, or the `data` the handlers read. -/
def Request.Answer : Request → Type
  | .put _ => Except AwsError Unit
  | .get _ => Except AwsError JsVal
  | .query _ _ => Except AwsError QueryOutput
  | .update _ _ _ => Except AwsError Unit
  | .delete _ => Except AwsError Unit

/-- The longest prefix whose sizes sum to at most `budget`. -/
def takePage {α : Type} (size : α → Nat) : Nat → List α → List α
  | _, [] => []
  | budget, a :: rest => if size a ≤ budget then a :: takePage size (budget - size a) rest else []

theorem isPrefix_takePage {α : Type} (size : α → Nat) (budget : Nat) (l : List α) :
    takePage size budget l <+: l := by
  induction l generalizing budget with
  | nil => exact List.prefix_rfl
  | cons a rest ih =>
    rw [takePage]
    split_ifs
    · exact List.cons_prefix_cons.2 ⟨rfl, ih _⟩
    · exact List.nil_prefix

/-- A page is the whole list exactly when the list fits. -/
theorem takePage_eq_iff {α : Type} (size : α → Nat) (budget : Nat) (l : List α) :
    takePage size budget l = l ↔ (l.map size).sum ≤ budget := by
  induction l generalizing budget with
  | nil => simp [takePage]
  | cons a rest ih =>
    rw [takePage, List.map_cons, List.sum_cons]
    split_ifs with h
    · rw [List.cons.injEq, ih]
      simp only [true_and]
      omega
    · simp only [false_iff]
      omega

/-- The digits of a number without zeros at the end, which DynamoDB does not store. -/
def significantDigits (d : Decimal) : List Char := (Nat.toDigits 10 d.mantissa.natAbs).rdropWhile (· = '0')

mutual
def valueSize : Json → Nat
  | .null => 1
  | .bool _ => 1
  | .num d => ((significantDigits d).length + 1) / 2 + 1
  | .str s => s.utf8ByteSize
  | .arr vs => 3 + elementsSize vs
  | .obj ms => 3 + membersSize ms

def elementsSize : List Json → Nat
  | [] => 0
  | v :: vs => 1 + valueSize v + elementsSize vs

def membersSize : List (String × Json) → Nat
  | [] => 0
  | (k, v) :: ms => 1 + k.utf8ByteSize + valueSize v + membersSize ms
end

/-- Bytes an item takes: attribute names and values, the key attributes included. -/
def itemSize (e : Key × Attributes) : Nat :=
  "userId".utf8ByteSize + e.1.userId.utf8ByteSize + "goalId".utf8ByteSize + e.1.goalId.utf8ByteSize +
    (e.2.entries.map fun a => a.1.utf8ByteSize + valueSize a.2).sum

/-- The limit of one Query call, 1 MB. -/
def pageLimit : Nat := 1048576

/-- The part of the table stored under `userId`, in sort-key order. -/
def userPartition (t : Table) (userId : String) : Table := t.filter fun k => k.userId = userId

def validationError : AwsError := ⟨[("code", .str "ValidationException")]⟩

def placeholder (name : String) (values : List (String × Json)) : Option Json :=
  (values.find? fun e => e.1 = name).map Prod.snd

/-- The attributes that `SET` assigns, if every placeholder has a value. -/
def assignments (set : List (String × String)) (values : List (String × Json)) :
    Option (List (String × Json)) :=
  set.mapM fun e => (placeholder e.2 values).map fun v => (e.1, v)

def setAll (a : Attributes) (sets : List (String × Json)) : Attributes :=
  sets.foldl (fun a e => a.insert e.1 e.2) a

def putAttributes (item : PutItem) : Attributes :=
  setAll .empty (definedMembers item.attributes)

def queryOutput (t : Table) (userId : String) : QueryOutput :=
  let part := (userPartition t userId).entries
  let page := takePage itemSize pageLimit part
  { items := page.map fun e => itemJson e.1 e.2
    lastEvaluatedKey := if page.length < part.length then page.getLast?.map Prod.fst else none }

/-- One call: `outcome` is the error it fails with, if it fails. -/
def exec (outcome : Option AwsError) : (r : Request) → Table → r.Answer × Table
  | .put item, t =>
    match outcome with
    | some e => (.error e, t)
    | none => (.ok (), t.insert ⟨item.userId, item.goalId⟩ (putAttributes item))
  | .get k, t =>
    match outcome with
    | some e => (.error e, t)
    | none => (.ok ((t.find? k).map (itemJson k)), t)
  | .query (name, ph) values, t =>
    match outcome, placeholder ph values with
    | some e, _ => (.error e, t)
    | none, some (.str u) => if name = "userId" then (.ok (queryOutput t u), t) else (.error validationError, t)
    | none, _ => (.error validationError, t)
  | .update k set values, t =>
    match outcome, assignments set values with
    | some e, _ => (.error e, t)
    | none, some sets => (.ok (), t.insert k (setAll ((t.find? k).getD .empty) sets))
    | none, none => (.error validationError, t)
  | .delete k, t =>
    match outcome with
    | some e => (.error e, t)
    | none => (.ok (), t.erase k)

end FullStack
