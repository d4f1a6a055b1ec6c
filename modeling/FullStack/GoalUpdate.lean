import FullStack.ApiAnswer
import FullStack.ReadPaths

/-!
# What UpdateGoal writes

UpdateGoal sets both fields whatever the body has: a field that the body lacks, or supplies as the empty
string, becomes `null`. So a following GetGoal returns what was supplied, and for the rest what was stored,
exactly when each field is supplied as a non-empty string, or left out where `null` is stored
(`writesSupplied_iff`). No other attribute is touched (`member_updated`).
-/

namespace FullStack

/-- The body is a JSON object with the given `title` and `content`, or without. -/
def UpdateBody (body : Option String) (title content : Option String) : Prop :=
  ∃ ms, jsonParse body = .ok (some (.obj ms)) ∧ Json.lookup "title" ms = title.map Json.str ∧
    Json.lookup "content" ms = content.map Json.str

/-- `after` has the supplied fields, and everything else as `before` has it. -/
structure WritesSupplied (title content : Option String) (before after : Json) : Prop where
  title : after.member "title" = (title.map Json.str).or (before.member "title")
  content : after.member "content" = (content.map Json.str).or (before.member "content")
  others : ∀ name, name ≠ "title" → name ≠ "content" → after.member name = before.member name

/-- The field is supplied as a non-empty string, or left out where `null` is stored. -/
def FieldKept (supplied : Option String) (stored : JsVal) : Prop :=
  match supplied with
  | some s => s ≠ ""
  | none => stored = some .null

def readGoal (t : Table) (user goalId : String) : Option Json :=
  bodyValue (invoke ⟨.getGoal, ⟨user, ⟨goalId⟩, none⟩, ⟨"", 0⟩, none⟩ t).1

theorem readGoal_eq (t : Table) (user goalId : String) :
    readGoal t user goalId = (t.find? ⟨user, goalId⟩).map (itemJson ⟨user, goalId⟩) :=
  bodyValue_getGoal (u := user) ⟨rfl, rfl, rfl⟩ t

theorem orNull_eq_iff (supplied : Option String) (stored : JsVal) :
    some (UpdateGoal.orNull (supplied.map Json.str)) = (supplied.map Json.str).or stored ↔ FieldKept supplied stored := by
  cases supplied with
  | none =>
    have hnull : UpdateGoal.orNull none = .null := rfl
    rw [Option.map_none, hnull, Option.none_or, FieldKept]
    exact eq_comm
  | some s =>
    rw [Option.map_some, Option.some_or, Option.some.injEq, UpdateGoal.orNull, truthy_str, FieldKept]
    by_cases h : s = "" <;> simp [h]

section
variable (k : Key) (a : Attributes) (fields : JsVal × JsVal)

theorem member_updated_title :
    (itemJson k (updatedAttributes a fields)).member "title" = some (UpdateGoal.orNull fields.1) := by
  rw [member_itemJson (by decide) (by decide), find?_updated_title]

theorem member_updated_content :
    (itemJson k (updatedAttributes a fields)).member "content" = some (UpdateGoal.orNull fields.2) := by
  rw [member_itemJson (by decide) (by decide), find?_updated_content]

theorem member_updated {name : String} (ht : name ≠ "title") (hc : name ≠ "content") :
    (itemJson k (updatedAttributes a fields)).member name = (itemJson k a).member name := by
  simp only [itemJson, Json.member, Json.lookup, lookup_entries, find?_updated fields a ht hc]

end

section
variable {t : Table} {user goalId : String} {a : Attributes} (hstored : t.find? ⟨user, goalId⟩ = some a)
  {body title content : Option String} (hbody : UpdateBody body title content) (context : Context)

include hstored hbody in
theorem readGoal_updateGoal :
    readGoal (invoke ⟨.updateGoal, ⟨user, ⟨goalId⟩, body⟩, context, none⟩ t).2 user goalId =
      some (itemJson ⟨user, goalId⟩ (updatedAttributes a (title.map Json.str, content.map Json.str))) := by
  obtain ⟨ms, hms, htitle, hcontent⟩ := hbody
  have hfields : bodyFields body = .ok (title.map Json.str, content.map Json.str) := by
    rw [bodyFields_of_obj hms, htitle, hcontent]
  rw [readGoal_eq, invoke_updateGoal, hfields]
  simp only [hstored, Option.getD_some, SortedMap.find?_insert_self, Option.map_some]

include hstored hbody in
/-- After a successful update a GetGoal returns what was supplied, and the rest as it was stored, exactly
when `null` is written for no field that had or was given another value. -/
theorem writesSupplied_iff :
    (∃ before after, readGoal t user goalId = some before ∧
      readGoal (invoke ⟨.updateGoal, ⟨user, ⟨goalId⟩, body⟩, context, none⟩ t).2 user goalId = some after ∧
      WritesSupplied title content before after) ↔
    FieldKept title (a.find? "title") ∧ FieldKept content (a.find? "content") := by
  have hread : readGoal t user goalId = some (itemJson ⟨user, goalId⟩ a) := by
    rw [readGoal_eq, hstored]
    rfl
  have hread' := readGoal_updateGoal hstored hbody context
  have hbt : (itemJson ⟨user, goalId⟩ a).member "title" = a.find? "title" :=
    member_itemJson (by decide) (by decide)
  have hbc : (itemJson ⟨user, goalId⟩ a).member "content" = a.find? "content" :=
    member_itemJson (by decide) (by decide)
  rw [← orNull_eq_iff, ← orNull_eq_iff, ← hbt, ← hbc]
  constructor
  · rintro ⟨before, after, hb, ha, hw⟩
    obtain rfl := Option.some.inj (hread.symm.trans hb)
    obtain rfl := Option.some.inj (hread'.symm.trans ha)
    have ht := hw.title
    have hc := hw.content
    rw [member_updated_title] at ht
    rw [member_updated_content] at hc
    exact ⟨ht, hc⟩
  · rintro ⟨ht, hc⟩
    refine ⟨_, _, hread, hread', ?_, ?_, fun name hnt hnc => member_updated _ _ _ hnt hnc⟩
    · rw [member_updated_title]
      exact ht
    · rw [member_updated_content]
      exact hc

end

def oneGoal : Table :=
  SortedMap.empty.insert ⟨"u", "g"⟩ (createdAttributes (some (.str "run"), some (.str "5 km")) 1)

def updateText (fields : List (String × Json)) : Option String := some (Json.obj fields).stringify

theorem writesSupplied_both : ∃ before after, readGoal oneGoal "u" "g" = some before ∧
    readGoal (invoke ⟨.updateGoal, ⟨"u", ⟨"g"⟩, updateText [("title", .str "swim"), ("content", .str "1 km")]⟩,
      ⟨"r", 2⟩, none⟩ oneGoal).2 "u" "g" = some after ∧
    WritesSupplied (some "swim") (some "1 km") before after := by
  have hstored := SortedMap.find?_insert_self .empty (⟨"u", "g"⟩ : Key)
    (createdAttributes (some (.str "run"), some (.str "5 km")) 1)
  refine (writesSupplied_iff hstored ?_ ⟨"r", 2⟩).2 ⟨?_, ?_⟩
  · exact ⟨_, jsonParse_stringify _, rfl, rfl⟩
  · simp [FieldKept]
  · simp [FieldKept]

/-- Updating the title alone clears the content. -/
theorem titleOnly_not_writesSupplied : ¬ ∃ before after, readGoal oneGoal "u" "g" = some before ∧
    readGoal (invoke ⟨.updateGoal, ⟨"u", ⟨"g"⟩, updateText [("title", .str "swim")]⟩, ⟨"r", 2⟩, none⟩ oneGoal).2
      "u" "g" = some after ∧
    WritesSupplied (some "swim") none before after := by
  rintro ⟨before, after, hb, ha, hw⟩
  have hstored := SortedMap.find?_insert_self .empty (⟨"u", "g"⟩ : Key)
    (createdAttributes (some (.str "run"), some (.str "5 km")) 1)
  have hbody : UpdateBody (updateText [("title", .str "swim")]) (some "swim") none :=
    ⟨_, jsonParse_stringify _, rfl, rfl⟩
  rw [readGoal_eq, oneGoal, hstored] at hb
  rw [oneGoal, readGoal_updateGoal hstored hbody] at ha
  obtain rfl := Option.some.inj hb
  obtain rfl := Option.some.inj ha
  have hcontent := hw.content
  rw [member_updated_content, member_itemJson (by decide) (by decide), find?_created_content] at hcontent
  cases hcontent

end FullStack
