import FullStack.Client

/-!
# Opening a goal

GetGoal answers 200 whether or not the item is there: the body of an absent item is left out. `getGoal`
takes the title and the content from what arrives and `render` asks both for their lengths, so the editor
survives exactly if the goal is still stored when it is opened (`opensSafely_iff`).
-/

namespace FullStack

namespace Client

def opened (t : Table) (user goalId : String) (context : Context) : Option JsVal :=
  apiResult (invoke (invocation user (.get goalId) context none) t).1

/-- Whatever editor opens the goal, it stores a state that it can render and validate. -/
def OpensSafely (t : Table) (user goalId : String) : Prop :=
  ∀ context props state, ∃ value state', opened t user goalId context = some value ∧
    AddEditGoal.onResponse props (.get goalId) value state = .ok state' ∧
    (AddEditGoal.render state').isOk = true ∧ (AddEditGoal.validateForm state').isOk = true

/-- The form is validated without an exception if and only if the title has a length, and the content too
where it is looked at. -/
theorem isOk_validateForm (state : AddEditGoal.State) : (AddEditGoal.validateForm state).isOk =
    (AddEditGoal.hasLength state.goal.title &&
      (!AddEditGoal.isNonEmpty state.goal.title || AddEditGoal.hasLength state.goal.content)) := by
  rw [← AddEditGoal.isOk_nonEmpty, ← AddEditGoal.isOk_nonEmpty, AddEditGoal.validateForm, AddEditGoal.isNonEmpty]
  cases AddEditGoal.nonEmpty state.goal.title with
  | error e => rfl
  | ok titleValid => cases titleValid <;> simp <;> rfl

theorem hasLength_filled {v : JsVal} (h : Filled v) : AddEditGoal.hasLength v = true := by
  obtain ⟨s, -, rfl⟩ := h
  rfl

section
variable {t : Table} {user goalId : String}

theorem opensSafely_of_filled {a : Attributes} (hitem : t.find? ⟨user, goalId⟩ = some a) (ha : FilledItem a) :
    OpensSafely t user goalId := by
  intro context props state
  obtain ⟨htitle, hcontent⟩ := ha
  refine ⟨some (itemJson ⟨user, goalId⟩ a), { state with
    isLoading := false
    goal := ⟨props.map Json.str, a.find? "title", a.find? "content"⟩ }, apiResult_getGoal_present hitem, ?_, ?_, ?_⟩
  · rw [AddEditGoal.onResponse, prop_itemJson _ (by decide) (by decide), prop_itemJson _ (by decide) (by decide)]
    rfl
  · simp [AddEditGoal.isOk_render, hasLength_filled htitle, hasLength_filled hcontent]
  · simp [isOk_validateForm, hasLength_filled htitle, hasLength_filled hcontent]

theorem not_opensSafely_of_absent (hitem : t.find? ⟨user, goalId⟩ = none) : ¬ OpensSafely t user goalId := by
  intro h
  obtain ⟨value, state', hvalue, hstate, -, hvalidate⟩ := h ⟨"", 0⟩ (some goalId) AddEditGoal.initialState
  cases hvalue.symm.trans (apiResult_getGoal_absent hitem)
  cases hstate
  rw [isOk_validateForm] at hvalidate
  cases hvalidate

/-- On every table that the clients can reach, opening a goal is safe exactly if it is still there. -/
theorem opensSafely_iff (actions : List Action) (user goalId : String) :
    OpensSafely (World.run actions .init).table user goalId ↔
      ((World.run actions .init).table.find? ⟨user, goalId⟩).isSome := by
  have hfilled := (inv_run actions).table
  generalize (World.run actions .init).table = t at hfilled ⊢
  cases hitem : t.find? ⟨user, goalId⟩ with
  | none => exact iff_of_false (not_opensSafely_of_absent hitem) Bool.false_ne_true
  | some a => exact iff_of_true (opensSafely_of_filled hitem (hfilled _ _ hitem)) rfl

end

/-- A goal is created, and deleted in a second tab while the first still lists it. -/
def deletedElsewhere : List Action :=
  [.mount "ada" none, .input 0 (.change .title "run"), .input 0 (.change .content "5 km"), .input 0 .submit,
    .serve 0 ⟨"r1", 1⟩ none, .arrive 0, .mount "ada" (some "r1"), .serve 1 ⟨"r2", 2⟩ none, .arrive 1,
    .input 1 .openDelete, .input 1 .confirmDelete, .serve 2 ⟨"r3", 3⟩ none]

/-- Opening it from the first tab breaks the editor. -/
theorem deletedElsewhere_not_opensSafely :
    ¬ OpensSafely (World.run deletedElsewhere .init).table "ada" "r1" :=
  not_opensSafely_of_absent (Option.isNone_iff_eq_none.1 (by decide +kernel))

end Client

end FullStack
