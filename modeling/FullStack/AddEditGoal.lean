import FullStack.Js
import Mathlib.Tactic.SplitIfs

/-!
# The goal editor

The component `AddEditGoal`: its state, what `render` shows or throws, and its event handlers, which may
send an API request. A response continues where the request's promise chain says (`onResponse`); no
chain handles a rejection.
-/

namespace FullStack

namespace AddEditGoal

structure Goal where
  goalId : JsVal
  title : JsVal
  content : JsVal

structure State where
  redirect : String
  isExistingGoal : Bool
  isLoading : Bool
  isUpdating : Bool
  isDeleting : Bool
  showDeleteModal : Bool
  goal : Goal

/-- `this.props.match.params.id`, which the route `/goal/:id?` leaves undefined for `/goal/`. -/
abbrev Props := Option String

/-- The requests that the component sends; a body is the object before it is serialised. -/
inductive ApiRequest where
  | get (goalId : String)
  | put (goalId : String) (body : Json)
  | post (body : Json)
  | del (goalId : String)

def initialState : State where
  redirect := ""
  isExistingGoal := false
  isLoading := false
  isUpdating := false
  isDeleting := false
  showDeleteModal := false
  goal := { goalId := some (.str ""), title := some (.str ""), content := some (.str "") }

def idText (props : Props) : String := props.getD "undefined"

/-- The request body; an `undefined` member is not serialised. -/
def goalBody (goal : Goal) : Json := .obj (definedMembers [("title", goal.title), ("content", goal.content)])

def getGoal (goalId : String) (state : State) : State × ApiRequest :=
  ({ state with isLoading := true }, .get goalId)

def componentDidMount (props : Props) (state : State) : State × Option ApiRequest :=
  match props with
  | none => (state, none)
  | some id =>
    if id = "" then (state, none)
    else
      let (state, request) := getGoal id state
      ({ state with isExistingGoal := true }, some request)

/-- `v.length > 0`. -/
def nonEmpty (v : JsVal) : Except JsError Bool := do
  match v with
  | some (.str s) => return s ≠ ""
  | some (.arr vs) => return !vs.isEmpty
  | v =>
    let length ← prop "length" v
    exceedsZero length

def validateForm (state : State) : Except JsError Bool := do
  if ← nonEmpty state.goal.title then nonEmpty state.goal.content
  else return false

structure Form where
  titleValid : Bool
  contentValid : Bool
  deleteButton : Bool
  submitDisabled : Bool

/-- What the user sees: a redirect to another page, or the page with its form, or a spinner, and the
delete dialog. -/
inductive View where
  | redirect (path : String)
  | page (form : Option Form) (deleteModal : Bool)

def renderForm (state : State) : Except JsError Form := do
  let titleValid ← nonEmpty state.goal.title
  let contentValid ← nonEmpty state.goal.content
  let valid ← validateForm state
  return { titleValid, contentValid, deleteButton := state.isExistingGoal, submitDisabled := !valid }

def render (state : State) : Except JsError View :=
  if state.redirect ≠ "" then .ok (.redirect state.redirect)
  else if state.isLoading then .ok (.page none state.showDeleteModal)
  else do
    let form ← renderForm state
    return .page (some form) state.showDeleteModal

theorem validateForm_eq_true {state : State} (h : validateForm state = .ok true) :
    nonEmpty state.goal.title = .ok true ∧ nonEmpty state.goal.content = .ok true := by
  obtain ⟨b, hb, hc⟩ := bind_eq_ok.1 h
  cases b with
  | true => exact ⟨hb, hc⟩
  | false => cases hc

theorem validateForm_of_renderForm {state : State} {form : Form} (h : renderForm state = .ok form) :
    validateForm state = .ok (!form.submitDisabled) := by
  obtain ⟨_, -, h⟩ := bind_eq_ok.1 h
  obtain ⟨_, -, h⟩ := bind_eq_ok.1 h
  obtain ⟨valid, hvalid, h⟩ := bind_eq_ok.1 h
  cases h
  rw [hvalid, Bool.not_not]

theorem renderForm_of_render {state : State} {form : Form} {deleteModal : Bool}
    (h : render state = .ok (.page (some form) deleteModal)) : renderForm state = .ok form := by
  rw [render] at h
  split_ifs at h
  · cases h
  · cases h
  · obtain ⟨form', hform, h⟩ := bind_eq_ok.1 h
    cases h
    exact hform

/-- The value can be asked for its length, and the length compared with a number. -/
def hasLength : JsVal → Bool
  | none => false
  | some .null => false
  | some (.obj ms) => ((Json.lookup "length" ms).map isConvertible).getD true
  | some _ => true

theorem isOk_nonEmpty (v : JsVal) : (nonEmpty v).isOk = hasLength v := by
  cases v with
  | none => rfl
  | some v =>
    cases v with
    | obj ms =>
      rw [nonEmpty, prop_obj, ok_bind, hasLength]
      · cases Json.lookup "length" ms with
        | none => rfl
        | some n =>
          rw [exceedsZero, Option.map_some, Option.getD_some]
          cases isConvertible n <;> rfl
      · nofun
      · nofun
    | _ => rfl

theorem isOk_renderForm (state : State) :
    (renderForm state).isOk = (hasLength state.goal.title && hasLength state.goal.content) := by
  rw [← isOk_nonEmpty, ← isOk_nonEmpty, renderForm, validateForm]
  cases nonEmpty state.goal.title with
  | error e => rfl
  | ok titleValid =>
    cases nonEmpty state.goal.content with
    | error e => rfl
    | ok contentValid => cases titleValid <;> rfl

/-- `render` throws exactly if it comes to show a title or content without a length. -/
theorem isOk_render (state : State) :
    (render state).isOk = (state.redirect ≠ "" || state.isLoading ||
      hasLength state.goal.title && hasLength state.goal.content) := by
  rw [← isOk_renderForm, render]
  split_ifs with hredirect hloading
  · simp [hredirect, Except.isOk, Except.toBool]
  · simp [hloading, Except.isOk, Except.toBool]
  · cases renderForm state <;> simp_all [Except.isOk, Except.toBool]

theorem render_form {state : State} (hredirect : state.redirect = "") (hloading : state.isLoading = false)
    (hgoal : (hasLength state.goal.title && hasLength state.goal.content) = true) :
    ∃ form, renderForm state = .ok form ∧ render state = .ok (.page (some form) state.showDeleteModal) := by
  rw [← isOk_renderForm] at hgoal
  cases hform : renderForm state with
  | error e => rw [hform] at hgoal; cases hgoal
  | ok form =>
    refine ⟨form, rfl, ?_⟩
    rw [render, if_neg (not_not.2 hredirect), if_neg (ne_true_of_eq_false hloading), hform]
    rfl

def isNonEmpty (v : JsVal) : Bool :=
  match nonEmpty v with
  | .ok b => b
  | .error _ => false

theorem validateForm_eq {state : State}
    (hgoal : (hasLength state.goal.title && hasLength state.goal.content) = true) :
    validateForm state = .ok (isNonEmpty state.goal.title && isNonEmpty state.goal.content) := by
  rw [← isOk_nonEmpty, ← isOk_nonEmpty] at hgoal
  rw [validateForm, isNonEmpty, isNonEmpty]
  cases htitle : nonEmpty state.goal.title with
  | error e => rw [htitle] at hgoal; cases hgoal
  | ok titleValid =>
    cases hcontent : nonEmpty state.goal.content with
    | error e => rw [htitle, hcontent] at hgoal; cases hgoal
    | ok contentValid => cases titleValid <;> rfl

inductive Field where
  | title
  | content
deriving DecidableEq

def handleChange (field : Field) (value : String) (state : State) : State :=
  match field with
  | .title => { state with goal := { state.goal with title := some (.str value) } }
  | .content => { state with goal := { state.goal with content := some (.str value) } }

def handleCancel (state : State) : State := { state with redirect := "/" }

def updateGoal (props : Props) (state : State) : ApiRequest := .put (idText props) (goalBody state.goal)

def saveGoal (state : State) : ApiRequest := .post (goalBody state.goal)

def handleSubmit (props : Props) (state : State) : State × ApiRequest :=
  ({ state with isUpdating := true }, if state.isExistingGoal then updateGoal props state else saveGoal state)

def showDeleteModal (shouldShow : Bool) (state : State) : State := { state with showDeleteModal := shouldShow }

def handleDelete (props : Props) (state : State) : State × ApiRequest :=
  ({ state with isDeleting := true }, .del (idText props))

inductive Input where
  | change (field : Field) (value : String)
  | submit
  | cancel
  | openDelete
  | closeDelete
  | confirmDelete

/-- The view offers the input. The browser delivers no submit while the button is disabled. -/
def View.accepts : View → Input → Bool
  | .redirect _, _ => false
  | .page form _, .change _ _ => form.isSome
  | .page form _, .submit => form.any fun f => !f.submitDisabled
  | .page form _, .cancel => form.isSome
  | .page form _, .openDelete => form.any Form.deleteButton
  | .page _ deleteModal, .closeDelete => deleteModal
  | .page _ deleteModal, .confirmDelete => deleteModal

def handle (props : Props) (state : State) : Input → State × Option ApiRequest
  | .change field value => (handleChange field value state, none)
  | .submit => ((handleSubmit props state).1, some (handleSubmit props state).2)
  | .cancel => (handleCancel state, none)
  | .openDelete => (showDeleteModal true state, none)
  | .closeDelete => (showDeleteModal false state, none)
  | .confirmDelete => ((handleDelete props state).1, some (handleDelete props state).2)

/-- The `then` callback of a request, on the value its promise is resolved with. -/
def onResponse (props : Props) (request : ApiRequest) (value : JsVal) (state : State) : Except JsError State := do
  match request with
  | .get _ =>
    let title ← prop "title" value
    let content ← prop "content" value
    return { state with isLoading := false, goal := { goalId := props.map Json.str, title, content } }
  | .put _ _ => return { state with isUpdating := false, redirect := "/" }
  | .post _ => return { state with isUpdating := false, redirect := "/" }
  | .del _ => return { state with isDeleting := false, showDeleteModal := false, redirect := "/" }

theorem onResponse_error_cases {props : Props} {request : ApiRequest} {value : JsVal} {state : State} {e : JsError}
    (h : onResponse props request value state = .error e) :
    ∃ goalId, request = .get goalId ∧ (prop "title" value = .error e ∨
      ∃ title, prop "title" value = .ok title ∧ prop "content" value = .error e) := by
  cases request with
  | get goalId =>
    refine ⟨goalId, rfl, ?_⟩
    rw [onResponse] at h
    cases htitle : prop "title" value with
    | error e' =>
      rw [htitle] at h
      cases h
      exact .inl rfl
    | ok title =>
      cases hcontent : prop "content" value with
      | error e' =>
        rw [htitle, hcontent] at h
        cases h
        exact .inr ⟨title, rfl, rfl⟩
      | ok content =>
        rw [htitle, hcontent] at h
        cases h
  | put goalId body => cases h
  | post body => cases h
  | del goalId => cases h

end AddEditGoal

end FullStack
