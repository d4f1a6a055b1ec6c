import FullStack.GoalsApi
import Mathlib.Algebra.Order.BigOperators.Group.List
import Mathlib.Data.List.Perm.Subperm

/-!
# ListGoals against GetGoal

A client reads goals in two ways: the array that ListGoals answers and the item that GetGoal answers
for one id. Both answers are followed to the JSON text of the response body and back (`bodyValue`).
GetGoal reads every item of the partition (`bodyValue_getGoal`), ListGoals the first page of it
(`bodyValue_listGoals`), so the two agree exactly on the tables where the partition of the user fits
one page (`readsAgree_iff`).
-/

namespace FullStack

def bodyValue (o : Outcome) : Option Json :=
  match o.responses with
  | [⟨200, _, .text s⟩] => Json.parse s
  | _ => none

structure Serves (i : Invocation) (fn : GoalFunction) (u : String) : Prop where
  fn : i.fn = fn
  user : i.user = u
  outcome : i.outcome = none

/-- Every list that ListGoals answers to `u` holds exactly the items that GetGoal answers to `u` for
some id, each once. -/
def ReadsAgree (t : Table) (u : String) : Prop :=
  ∀ i, Serves i .listGoals u → ∃ items, bodyValue (invoke i t).1 = some (.arr items) ∧ items.Nodup ∧
    ∀ v, v ∈ items ↔ ∃ j, Serves j .getGoal u ∧ bodyValue (invoke j t).1 = some v

def partitionSize (t : Table) (u : String) : Nat := ((userPartition t u).entries.map itemSize).sum

def entryJson (e : Key × Attributes) : Json := itemJson e.1 e.2

theorem entryJson_injective : Function.Injective entryJson := by
  rintro ⟨⟨u, g⟩, ⟨l, hl⟩⟩ ⟨⟨u', g'⟩, ⟨l', hl'⟩⟩ h
  simp only [entryJson, itemJson, Json.obj.injEq, List.cons.injEq, Prod.mk.injEq, Json.str.injEq,
    true_and] at h
  obtain ⟨rfl, rfl, rfl⟩ := h
  rfl

theorem mem_partition_iff {t : Table} {u : String} {k : Key} {a : Attributes} :
    (k, a) ∈ (userPartition t u).entries ↔ k.userId = u ∧ t.find? k = some a := by
  rw [SortedMap.mem_entries_iff, userPartition, SortedMap.find?_filter]
  by_cases h : k.userId = u <;> simp [h]

section
variable {i : Invocation} {u : String}

theorem bodyValue_getGoal (hi : Serves i .getGoal u) (t : Table) :
    bodyValue (invoke i t).1 = (t.find? i.key).map (itemJson i.key) := by
  obtain ⟨fn, event, context, outcome⟩ := i
  obtain ⟨rfl, rfl, rfl⟩ := hi
  rw [invoke_getGoal]
  cases h : t.find? ⟨event.identity, event.pathParameters.id⟩ with
  | none => simp [Invocation.key, h, bodyValue, succeeded, stringifyBody]
  | some a => simp [Invocation.key, h, bodyValue, succeeded, stringifyBody, Json.parse_stringify]

theorem bodyValue_listGoals (hi : Serves i .listGoals u) (t : Table) :
    bodyValue (invoke i t).1 =
      some (.arr ((takePage itemSize pageLimit (userPartition t u).entries).map entryJson)) := by
  obtain ⟨fn, event, context, outcome⟩ := i
  obtain ⟨rfl, rfl, rfl⟩ := hi
  rw [invoke_listGoals]
  exact Json.parse_stringify _

end

theorem getGoal_answers_iff {t : Table} {u : String} {v : Json} :
    (∃ j, Serves j .getGoal u ∧ bodyValue (invoke j t).1 = some v) ↔
      v ∈ (userPartition t u).entries.map entryJson := by
  constructor
  · rintro ⟨j, hj, hv⟩
    rw [bodyValue_getGoal hj, Option.map_eq_some_iff] at hv
    obtain ⟨a, ha, rfl⟩ := hv
    exact List.mem_map_of_mem (f := entryJson) (mem_partition_iff.2 ⟨hj.user, ha⟩)
  · intro hv
    obtain ⟨⟨k, a⟩, he, rfl⟩ := List.mem_map.1 hv
    obtain ⟨rfl, ha⟩ := mem_partition_iff.1 he
    refine ⟨⟨.getGoal, ⟨k.userId, ⟨k.goalId⟩, none⟩, ⟨"", 0⟩, none⟩, ⟨rfl, rfl, rfl⟩, ?_⟩
    rw [bodyValue_getGoal ⟨rfl, rfl, rfl⟩, show Invocation.key _ = k from rfl, ha]
    rfl

/-- The read paths agree for a user exactly when the items stored under the user fit one page. -/
theorem readsAgree_iff (t : Table) (u : String) : ReadsAgree t u ↔ partitionSize t u ≤ pageLimit := by
  rw [partitionSize, ← takePage_eq_iff]
  set part := (userPartition t u).entries
  have hpage := isPrefix_takePage itemSize pageLimit part
  have hnodup : part.Nodup := SortedMap.nodup_entries _
  constructor
  · intro h
    have hlist : Serves ⟨.listGoals, ⟨u, ⟨""⟩, none⟩, ⟨"", 0⟩, none⟩ .listGoals u := ⟨rfl, rfl, rfl⟩
    obtain ⟨items, hitems, -, hmem⟩ := h _ hlist
    rw [bodyValue_listGoals hlist, Option.some.injEq, Json.arr.injEq] at hitems
    subst hitems
    have hsub : part ⊆ takePage itemSize pageLimit part := by
      intro e he
      have hv := (hmem _).2 (getGoal_answers_iff.2 (List.mem_map_of_mem (f := entryJson) he))
      exact (List.mem_map_of_injective entryJson_injective).1 hv
    exact hpage.eq_of_length_le (hnodup.subperm hsub).length_le
  · intro hfits i hi
    refine ⟨part.map entryJson, ?_, hnodup.map entryJson_injective, fun v => getGoal_answers_iff.symm⟩
    rw [bodyValue_listGoals hi, hfits]

theorem valueSize_le_itemSize {k : Key} {a : Attributes} {name : String} {v : Json}
    (h : a.find? name = some v) : valueSize v ≤ itemSize (k, a) := by
  have hv : name.utf8ByteSize + valueSize v ≤ (a.entries.map fun e => e.1.utf8ByteSize + valueSize e.2).sum :=
    List.le_sum_of_mem (List.mem_map_of_mem (f := fun e : String × Json => e.1.utf8ByteSize + valueSize e.2)
      (SortedMap.mem_entries_iff.2 h))
  simp only [itemSize]
  omega

theorem utf8ByteSize_letters (n : Nat) : (String.ofList (List.replicate n 'a')).utf8ByteSize = n := by
  induction n with
  | zero => rfl
  | succ n ih =>
    rw [List.replicate_succ', String.ofList_append, String.utf8ByteSize_append, ih]
    rfl

def createText (goalId content : String) : Invocation :=
  ⟨.createGoal, ⟨"u", ⟨""⟩, some (Json.obj [("title", .str "log"), ("content", .str content)]).stringify⟩,
    ⟨goalId, 1⟩, none⟩

theorem invoke_createText (goalId content : String) (t : Table) : (invoke (createText goalId content) t).2 =
    t.insert ⟨"u", goalId⟩ (createdAttributes (some (.str "log"), some (.str content)) 1) := by
  rw [createText, invoke_createGoal, bodyFields, jsonParse_stringify]
  rfl

def fourGoals (content : String) : Table :=
  tableAfter [createText "g1" content, createText "g2" content, createText "g3" content, createText "g4" content] .empty

theorem not_readsAgree_of_long {content : String} (hlen : pageLimit < 3 * content.utf8ByteSize) :
    ¬ ReadsAgree (fourGoals content) "u" := by
  simp only [readsAgree_iff, fourGoals, tableAfter, Machine.after_cons, Machine.after_nil, invoke_createText]
  generalize ha : createdAttributes (some (.str "log"), some (.str content)) 1 = a
  have hsize (k : Key) : content.utf8ByteSize ≤ itemSize (k, a) :=
    valueSize_le_itemSize (v := .str content) (ha ▸ find?_created_content _ _)
  have hpart : (userPartition ((((SortedMap.empty.insert ⟨"u", "g1"⟩ a).insert ⟨"u", "g2"⟩ a).insert
      ⟨"u", "g3"⟩ a).insert ⟨"u", "g4"⟩ a) "u").entries =
        [(⟨"u", "g1"⟩, a), (⟨"u", "g2"⟩, a), (⟨"u", "g3"⟩, a), (⟨"u", "g4"⟩, a)] := by rfl
  have h1 := hsize ⟨"u", "g1"⟩
  have h2 := hsize ⟨"u", "g2"⟩
  have h3 := hsize ⟨"u", "g3"⟩
  simp only [partitionSize, hpart, List.map_cons, List.map_nil, List.sum_cons, List.sum_nil]
  omega

/-- Three goals of 390000 letters take more than one page, so a page leaves the fourth out even if it holds the
item that crosses its limit. -/
theorem long_goals_not_readsAgree :
    ¬ ReadsAgree (fourGoals (String.ofList (List.replicate 390000 'a'))) "u" :=
  not_readsAgree_of_long (by rw [utf8ByteSize_letters]; decide)

end FullStack
