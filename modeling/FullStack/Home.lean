import FullStack.Js

/-!
# The list of goals

`Home.renderGoalsList` evaluates `goal.content.trim().split("\n")[0]` for every goal, without a guard. It
throws on a goal whose content is no string; a list of goals whose contents are strings is rendered
(`renderGoalsList_of_strings`).
-/

namespace FullStack

namespace Home

/-- `v.trim()`; only a string has the method. -/
def trim : JsVal → Except JsError String
  | some (.str s) => .ok (String.ofList (trimChars s.toList))
  | _ => .error .typeError

def firstLine (s : String) : String := String.ofList (s.toList.takeWhile fun c => c ≠ '\n')

structure Row where
  goalId : JsVal
  title : JsVal
  description : String
  createdAt : JsVal

def renderGoal (goal : JsVal) : Except JsError Row := do
  let goalId ← prop "goalId" goal
  let title ← prop "title" goal
  let content ← prop "content" goal
  let description ← trim content
  let createdAt ← prop "createdAt" goal
  return { goalId, title, description := firstLine description, createdAt }

/-- `goalsList.concat(goals)` of the empty list appends the elements of an array, or a single value. -/
def concat : JsVal → List JsVal
  | some (.arr goals) => goals.map some
  | v => [v]

def renderGoalsList (goals : JsVal) : Except JsError (List Row) := (concat goals).mapM renderGoal

theorem renderGoal_of_string {ms : List (String × Json)} {s : String} (h : Json.lookup "content" ms = some (.str s)) :
    ∃ row, renderGoal (some (.obj ms)) = .ok row := by
  simp only [renderGoal, prop_obj, h]
  exact ⟨_, rfl⟩

theorem renderGoalsList_of_strings {goals : List (List (String × Json))}
    (h : ∀ ms ∈ goals, ∃ s, Json.lookup "content" ms = some (.str s)) :
    ∃ rows, renderGoalsList (some (.arr (goals.map Json.obj))) = .ok rows := by
  rw [renderGoalsList, concat, List.map_map]
  induction goals with
  | nil => exact ⟨[], rfl⟩
  | cons ms goals ih =>
    obtain ⟨s, hs⟩ := h ms List.mem_cons_self
    obtain ⟨row, hrow⟩ := renderGoal_of_string hs
    obtain ⟨rows, hrows⟩ := ih fun ms hms => h ms (List.mem_cons_of_mem _ hms)
    refine ⟨row :: rows, ?_⟩
    rw [List.map_cons, List.mapM_cons, Function.comp_apply, hrow, hrows]
    rfl

end Home

end FullStack
