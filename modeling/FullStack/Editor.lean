import FullStack.Client
import FullStack.Lib.Machine

/-!
# One goal editor

A `Session` is one editor with the API calls it has made. The user gives it inputs, the route changes under
it, and its calls settle in any order. It is back at its form when nothing is pending exactly if none of
its calls has failed (`shown_iff`): no rejection is handled, so each leaves its flag up.
-/

namespace FullStack

namespace Editor

open AddEditGoal (ApiRequest Props State Input Field View Form hasLength isOk_render)
open Client (Tab accepts_cases)

structure Call where
  request : ApiRequest
  outcome : Option (Option JsVal)

structure Session where
  tab : Tab
  calls : List Call

inductive Event where
  | input (input : Input)
  | navigate (props : Props)
  | settle (call : Nat) (result : Option JsVal)

inductive Effect where
  | quiet
  | edited (field : Field) (value : String)
  | sent (request : ApiRequest)
  | received (request : ApiRequest) (value : JsVal)

def sendCall (calls : List Call) : Option ApiRequest → List Call
  | none => calls
  | some request => calls ++ [⟨request, none⟩]

def mount (user : String) (props : Props) : Session :=
  let (state, request) := AddEditGoal.componentDidMount props AddEditGoal.initialState
  ⟨Tab.setState ⟨user, props, AddEditGoal.initialState, true⟩ state, sendCall [] request⟩

def inputEffect : Input → Option ApiRequest → Effect
  | .change field value, _ => .edited field value
  | _, some request => .sent request
  | _, none => .quiet

def receivedEffect (request : ApiRequest) : Option JsVal → Effect
  | some value => .received request value
  | none => .quiet

/-- One event; an input that the view does not offer is not given, and a call settles once. -/
def step : Event → Session → Effect × Session
  | .input input, s =>
    if s.tab.accepts input then
      let (state, request) := AddEditGoal.handle s.tab.props s.tab.state input
      (inputEffect input request, ⟨s.tab.setState state, sendCall s.calls request⟩)
    else (.quiet, s)
  | .navigate props, s => (.quiet, { s with tab := { s.tab with props := props } })
  | .settle c result, s =>
    match s.calls[c]? with
    | some ⟨request, none⟩ =>
      (receivedEffect request result, ⟨s.tab.onResult request result, s.calls.set c ⟨request, some result⟩⟩)
    | _ => (.quiet, s)

def after (user : String) (props : Props) (events : List Event) : Session :=
  Machine.after step events (mount user props)

/-- What a step does, by its event. -/
theorem step_cases (event : Event) (s : Session) :
    (∃ input, event = .input input ∧ s.tab.accepts input = true ∧
      step event s = (inputEffect input (AddEditGoal.handle s.tab.props s.tab.state input).2,
        ⟨s.tab.setState (AddEditGoal.handle s.tab.props s.tab.state input).1,
          sendCall s.calls (AddEditGoal.handle s.tab.props s.tab.state input).2⟩)) ∨
    (∃ props, event = .navigate props ∧ step event s = (.quiet, ⟨{ s.tab with props := props }, s.calls⟩)) ∨
    (∃ c result request, event = .settle c result ∧ s.calls[c]? = some ⟨request, none⟩ ∧
      step event s = (receivedEffect request result,
        ⟨s.tab.onResult request result, s.calls.set c ⟨request, some result⟩⟩)) ∨
    step event s = (.quiet, s) := by
  cases event with
  | input input =>
    by_cases h : s.tab.accepts input = true
    · exact .inl ⟨input, rfl, h, if_pos h⟩
    · exact .inr (.inr (.inr (if_neg h)))
  | navigate props => exact .inr (.inl ⟨props, rfl, rfl⟩)
  | settle c result =>
    cases hc : s.calls[c]? with
    | none => exact .inr (.inr (.inr (by rw [step, hc])))
    | some call =>
      obtain ⟨request, _ | outcome⟩ := call
      · exact .inr (.inr (.inl ⟨c, result, request, rfl, hc, by rw [step, hc]⟩))
      · exact .inr (.inr (.inr (by rw [step, hc])))

def isGet : ApiRequest → Bool
  | .get _ => true
  | _ => false

def isSave : ApiRequest → Bool
  | .put _ _ => true
  | .post _ => true
  | _ => false

def isDelete : ApiRequest → Bool
  | .del _ => true
  | _ => false

theorem isGet_handleSubmit (props : Props) (state : State) :
    isGet (AddEditGoal.handleSubmit props state).2 = false := by
  rw [AddEditGoal.handleSubmit]
  cases state.isExistingGoal <;> rfl

theorem form_of_render {state : State} {form : Form} {deleteModal : Bool}
    (h : AddEditGoal.render state = .ok (.page (some form) deleteModal)) :
    state.isLoading = false ∧ form.deleteButton = state.isExistingGoal := by
  constructor
  · rw [AddEditGoal.render] at h
    split_ifs at h with hredirect hloading
    · cases h
    · cases h
    · exact Bool.eq_false_iff.2 hloading
  · obtain ⟨_, -, h⟩ := bind_eq_ok.1 (AddEditGoal.renderForm_of_render h)
    obtain ⟨_, -, h⟩ := bind_eq_ok.1 h
    obtain ⟨_, -, h⟩ := bind_eq_ok.1 h
    cases h
    rfl

theorem onResult_cases (tab : Tab) (request : ApiRequest) (result : Option JsVal) :
    tab.onResult request result = tab ∧ (result = none ∨ tab.mounted = false ∨
      ∃ value e, result = some value ∧ AddEditGoal.onResponse tab.props request value tab.state = .error e) ∨
    ∃ value state, result = some value ∧ AddEditGoal.onResponse tab.props request value tab.state = .ok state ∧
      tab.mounted = true ∧ tab.onResult request result = tab.setState state := by
  cases result with
  | none => exact .inl ⟨rfl, .inl rfl⟩
  | some value =>
    rw [Tab.onResult]
    cases hs : AddEditGoal.onResponse tab.props request value tab.state with
    | error e => exact .inl ⟨rfl, .inr (.inr ⟨value, e, rfl, hs⟩)⟩
    | ok state =>
      cases hm : tab.mounted with
      | true => exact .inr ⟨value, state, rfl, hs, rfl, rfl⟩
      | false => exact .inl ⟨rfl, .inr (.inl rfl)⟩

theorem onResponse_get {props : Props} {goalId : String} {value : JsVal} {state state' : State}
    (h : AddEditGoal.onResponse props (.get goalId) value state = .ok state') :
    ∃ title content, prop "title" value = .ok title ∧ prop "content" value = .ok content ∧
      state' = { state with isLoading := false, goal := ⟨props.map Json.str, title, content⟩ } := by
  obtain ⟨title, htitle, h⟩ := bind_eq_ok.1 h
  obtain ⟨content, hcontent, h⟩ := bind_eq_ok.1 h
  cases h
  exact ⟨title, content, htitle, hcontent, rfl⟩

theorem onResponse_redirect {props : Props} {request : ApiRequest} (hget : isGet request = false)
    {value : JsVal} {state state' : State} (h : AddEditGoal.onResponse props request value state = .ok state') :
    state'.redirect = "/" := by
  cases request with
  | get goalId => cases hget
  | put goalId body => cases h; rfl
  | post body => cases h; rfl
  | del goalId => cases h; rfl

/-- The data of a goal has a title and a content. -/
def isGoalData (value : JsVal) : Bool :=
  match prop "title" value, prop "content" value with
  | .ok title, .ok content => hasLength title && hasLength content
  | _, _ => false

def Call.succeeded (call : Call) : Bool :=
  match call.outcome with
  | some (some value) => !isGet call.request || isGoalData value
  | _ => false

theorem Call.succeeded_resolved (request : ApiRequest) (value : JsVal) :
    Call.succeeded ⟨request, some (some value)⟩ = (!isGet request || isGoalData value) := rfl

def Call.pending (call : Call) : Bool := call.outcome.isNone

def Call.failed (call : Call) : Bool := !call.pending && !call.succeeded

def Session.quiet (s : Session) : Bool := s.tab.state.redirect = "" && !s.calls.any Call.pending

structure Shown (tab : Tab) : Prop where
  loading : tab.state.isLoading = false
  updating : tab.state.isUpdating = false
  deleting : tab.state.isDeleting = false
  form : tab.mounted = true ∧ ∃ form, AddEditGoal.render tab.state = .ok (.page (some form) tab.state.showDeleteModal)

/-! ### The flags follow the calls -/

/-- Each flag of an editor that has not redirected is up exactly for a call that is pending or has failed:
of a save or a delete that succeeds, the editor redirects. -/
structure Tracks (s : Session) : Prop where
  loading : s.tab.state.isLoading = s.calls.any fun call => isGet call.request && !call.succeeded
  updating : s.tab.state.isUpdating = s.calls.any fun call => isSave call.request
  deleting : s.tab.state.isDeleting = s.calls.any fun call => isDelete call.request
  unanswered : ∀ call ∈ s.calls, call.succeeded = true → isGet call.request = true
  renders : (AddEditGoal.render s.tab.state).isOk = true

structure Inv (s : Session) : Prop where
  loads : ∀ call ∈ s.calls.tail, isGet call.request = false
  tracks : s.tab.state.redirect = "" → s.tab.mounted = true → Tracks s
  gone : s.tab.state.redirect = "" → s.tab.mounted = false → ∃ call ∈ s.calls, call.failed = true

section
variable {s : Session}

theorem Inv.of_tracks {tab : Tab} {state : State} {calls : List Call} (hmounted : tab.mounted = true)
    (hloads : ∀ call ∈ calls.tail, isGet call.request = false) (h : Tracks ⟨tab.setState state, calls⟩) :
    Inv ⟨tab.setState state, calls⟩ := by
  refine ⟨hloads, fun _ _ => h, fun _ hgone => ?_⟩
  have hstill : (tab.mounted && (AddEditGoal.render state).isOk) = true :=
    Bool.and_eq_true_iff.2 ⟨hmounted, h.renders⟩
  exact absurd (hstill.symm.trans hgone) (by decide)

theorem loads_append {calls : List Call} (h : ∀ call ∈ calls.tail, isGet call.request = false) {new : Call}
    (hnew : isGet new.request = false) : ∀ call ∈ (calls ++ [new]).tail, isGet call.request = false := by
  cases calls with
  | nil => exact fun call hcall => absurd hcall List.not_mem_nil
  | cons first rest =>
    intro call hcall
    rcases List.mem_append.1 hcall with hcall | hcall
    · exact h call hcall
    · rw [List.mem_singleton.1 hcall, hnew]

theorem Inv.mount (user : String) (props : Props) : Inv (Editor.mount user props) := by
  cases props with
  | none => exact .of_tracks rfl (List.forall_mem_nil _) ⟨rfl, rfl, rfl, List.forall_mem_nil _, rfl⟩
  | some id =>
    by_cases hid : id = ""
    · subst hid
      exact .of_tracks rfl (List.forall_mem_nil _) ⟨rfl, rfl, rfl, List.forall_mem_nil _, rfl⟩
    · rw [Editor.mount, AddEditGoal.componentDidMount, if_neg hid]
      refine .of_tracks rfl (List.forall_mem_nil _) ⟨rfl, rfl, rfl, ?_, rfl⟩
      intro call hcall hsucceeded
      rw [List.mem_singleton.1 hcall]
      rfl

theorem renders_iff {state : State} (hredirect : state.redirect = "") :
    (AddEditGoal.render state).isOk = true ↔
      state.isLoading = true ∨ hasLength state.goal.title = true ∧ hasLength state.goal.content = true := by
  rw [isOk_render]
  simp [hredirect]

theorem renders_of_eq {state state' : State} (h : (AddEditGoal.render state).isOk = true)
    (hredirect : state'.redirect = state.redirect) (hloading : state'.isLoading = state.isLoading)
    (hgoal : state'.goal = state.goal) : (AddEditGoal.render state').isOk = true := by
  rw [isOk_render] at h ⊢
  rwa [hredirect, hloading, hgoal]

theorem renders_handleChange {state : State} (hredirect : state.redirect = "") (field : Field) (value : String)
    (h : (AddEditGoal.render state).isOk = true) :
    (AddEditGoal.render (AddEditGoal.handleChange field value state)).isOk = true := by
  have hredirect' : (AddEditGoal.handleChange field value state).redirect = "" := by
    cases field
    exacts [hredirect, hredirect]
  rw [renders_iff hredirect] at h
  rw [renders_iff hredirect']
  cases field with
  | title => exact h.imp_right fun ⟨_, hcontent⟩ => ⟨rfl, hcontent⟩
  | content => exact h.imp_right fun ⟨htitle, _⟩ => ⟨htitle, rfl⟩

theorem Tracks.send (h : Tracks s) {request : ApiRequest} (hget : isGet request = false) {state : State}
    (hredirect : state.redirect = s.tab.state.redirect) (hloading : state.isLoading = s.tab.state.isLoading)
    (hgoal : state.goal = s.tab.state.goal)
    (hupdating : state.isUpdating = (s.tab.state.isUpdating || isSave request))
    (hdeleting : state.isDeleting = (s.tab.state.isDeleting || isDelete request)) :
    Tracks ⟨s.tab.setState state, s.calls ++ [⟨request, none⟩]⟩ := by
  refine ⟨?_, ?_, ?_, fun call hcall hsucceeded => ?_, renders_of_eq h.renders hredirect hloading hgoal⟩
  · rw [List.any_append, ← h.loading, List.any_cons, hget, Bool.false_and, List.any_nil, Bool.or_false, Bool.or_false]
    exact hloading
  · rw [List.any_append, ← h.updating, List.any_cons, List.any_nil, Bool.or_false]
    exact hupdating
  · rw [List.any_append, ← h.deleting, List.any_cons, List.any_nil, Bool.or_false]
    exact hdeleting
  · rcases List.mem_append.1 hcall with hcall | hcall
    · exact h.unanswered call hcall hsucceeded
    · rw [List.mem_singleton.1 hcall] at hsucceeded
      cases hsucceeded

theorem Inv.input (h : Inv s) {input : Input} (ha : s.tab.accepts input = true) :
    Inv ⟨s.tab.setState (AddEditGoal.handle s.tab.props s.tab.state input).1,
      sendCall s.calls (AddEditGoal.handle s.tab.props s.tab.state input).2⟩ := by
  obtain ⟨hmounted, hredirect, -⟩ := accepts_cases ha
  have ht := h.tracks hredirect hmounted
  cases input with
  | change field value =>
    have hrenders := renders_handleChange hredirect field value ht.renders
    refine .of_tracks hmounted h.loads ?_
    cases field with
    | title => exact ⟨ht.loading, ht.updating, ht.deleting, ht.unanswered, hrenders⟩
    | content => exact ⟨ht.loading, ht.updating, ht.deleting, ht.unanswered, hrenders⟩
  | submit =>
    rw [AddEditGoal.handle, AddEditGoal.handleSubmit]
    cases s.tab.state.isExistingGoal with
    | true =>
      exact .of_tracks hmounted (loads_append h.loads rfl)
        (ht.send rfl rfl rfl rfl (Bool.or_true _).symm (Bool.or_false _).symm)
    | false =>
      exact .of_tracks hmounted (loads_append h.loads rfl)
        (ht.send rfl rfl rfl rfl (Bool.or_true _).symm (Bool.or_false _).symm)
  | cancel =>
    have hgone : AddEditGoal.initialState.redirect ≠ "/" := by decide
    exact ⟨h.loads, fun hr => absurd hr.symm hgone, fun hr => absurd hr.symm hgone⟩
  | openDelete =>
    exact .of_tracks hmounted h.loads ⟨ht.loading, ht.updating, ht.deleting, ht.unanswered,
      renders_of_eq ht.renders rfl rfl rfl⟩
  | closeDelete =>
    exact .of_tracks hmounted h.loads ⟨ht.loading, ht.updating, ht.deleting, ht.unanswered,
      renders_of_eq ht.renders rfl rfl rfl⟩
  | confirmDelete =>
    exact .of_tracks hmounted (loads_append h.loads rfl)
      (ht.send rfl rfl rfl rfl (Bool.or_false _).symm (Bool.or_true _).symm)

/-! Settling a call -/

theorem any_set_of_eq {α : Type} {p : α → Bool} {l : List α} {i : Nat} {a b : α} (hi : l[i]? = some a)
    (h : p b = p a) : (l.set i b).any p = l.any p := by
  induction l generalizing i with
  | nil => rfl
  | cons x l ih =>
    cases i with
    | zero =>
      obtain rfl := Option.some.inj hi
      rw [List.set_cons_zero, List.any_cons, List.any_cons, h]
    | succ i => rw [List.set_cons_succ, List.any_cons, List.any_cons, ih hi]

theorem mem_set_of_ne {α : Type} {l : List α} {i : Nat} {a b c : α} (ha : a ∈ l) (hi : l[i]? = some b) (hne : a ≠ b) :
    a ∈ l.set i c := by
  obtain ⟨j, hj⟩ := List.mem_iff_getElem?.1 ha
  refine List.mem_iff_getElem?.2 ⟨j, ?_⟩
  rw [List.getElem?_set_ne, hj]
  rintro rfl
  exact hne (Option.some.inj (hj.symm.trans hi))

theorem loads_set {calls : List Call} (h : ∀ call ∈ calls.tail, isGet call.request = false) {c : Nat}
    {request : ApiRequest} {outcome outcome' : Option (Option JsVal)} (hc : calls[c]? = some ⟨request, outcome⟩) :
    ∀ call ∈ (calls.set c ⟨request, outcome'⟩).tail, isGet call.request = false := by
  cases calls with
  | nil => exact h
  | cons first rest =>
    cases c with
    | zero => exact h
    | succ c =>
      have hrest : rest[c]? = some ⟨request, outcome⟩ := hc
      intro call hcall
      rcases List.mem_or_eq_of_mem_set hcall with hcall | rfl
      · exact h call hcall
      · exact h ⟨request, outcome⟩ (List.mem_of_getElem? hrest)

theorem Tracks.fail (h : Tracks s) {c : Nat} {request : ApiRequest} (hc : s.calls[c]? = some ⟨request, none⟩)
    {result : Option JsVal} (hfail : Call.succeeded ⟨request, some result⟩ = false) :
    Tracks ⟨s.tab, s.calls.set c ⟨request, some result⟩⟩ := by
  refine ⟨?_, ?_, ?_, fun call hcall hsucceeded => ?_, h.renders⟩
  · rw [any_set_of_eq hc]
    · exact h.loading
    · rw [hfail]
      rfl
  · rw [any_set_of_eq hc]
    · exact h.updating
    · rfl
  · rw [any_set_of_eq hc]
    · exact h.deleting
    · rfl
  · rcases List.mem_or_eq_of_mem_set hcall with hcall | rfl
    · exact h.unanswered call hcall hsucceeded
    · rw [hfail] at hsucceeded
      cases hsucceeded

theorem onResponse_error {props : Props} {request : ApiRequest} {value : JsVal} {state : State} {e : JsError}
    (h : AddEditGoal.onResponse props request value state = .error e) :
    isGet request = true ∧ isGoalData value = false := by
  obtain ⟨goalId, rfl, hthrown⟩ := AddEditGoal.onResponse_error_cases h
  refine ⟨rfl, ?_⟩
  rw [isGoalData]
  rcases hthrown with htitle | ⟨title, htitle, hcontent⟩
  · rw [htitle]
  · rw [htitle, hcontent]

/-- The editor stays mounted over its load exactly if it gets the data of a goal. -/
theorem renders_loaded {state : State} {value : JsVal} {title content : JsVal}
    (htitle : prop "title" value = .ok title) (hcontent : prop "content" value = .ok content) (id : JsVal)
    (hredirect : state.redirect = "") :
    (AddEditGoal.render { state with isLoading := false, goal := ⟨id, title, content⟩ }).isOk = isGoalData value := by
  rw [isOk_render, isGoalData, htitle, hcontent]
  simp [hredirect]

theorem any_loading_set {calls : List Call} (h : ∀ call ∈ calls.tail, isGet call.request = false) {c : Nat}
    {request : ApiRequest} (hget : isGet request = true) (hc : calls[c]? = some ⟨request, none⟩) {new : Call}
    (hnew : new.succeeded = true) :
    ((calls.set c new).any fun call => isGet call.request && !call.succeeded) = false := by
  cases calls with
  | nil => rfl
  | cons first rest =>
    cases c with
    | zero =>
      rw [List.set_cons_zero, List.any_cons, hnew, Bool.not_true, Bool.and_false, Bool.false_or, List.any_eq_false]
      intro call hcall
      rw [h call hcall, Bool.false_and]
      exact Bool.false_ne_true
    | succ c =>
      have hrest : rest[c]? = some ⟨request, none⟩ := hc
      exact absurd (hget.symm.trans (h _ (List.mem_of_getElem? hrest))) (by decide)

theorem Inv.settle_kept (h : Inv s) {c : Nat} {request : ApiRequest} (hc : s.calls[c]? = some ⟨request, none⟩)
    {result : Option JsVal} (hwhy : result = none ∨ s.tab.mounted = false ∨ ∃ value e, result = some value ∧
      AddEditGoal.onResponse s.tab.props request value s.tab.state = .error e) :
    Inv ⟨s.tab, s.calls.set c ⟨request, some result⟩⟩ := by
  refine ⟨loads_set h.loads hc, fun hredirect hmounted => ?_, fun hredirect hgone => ?_⟩
  · have hfail : Call.succeeded ⟨request, some result⟩ = false := by
      rcases hwhy with rfl | hgone | ⟨value, e, rfl, he⟩
      · rfl
      · exact absurd (hmounted.symm.trans hgone) (by decide)
      · obtain ⟨hget, hdata⟩ := onResponse_error he
        rw [Call.succeeded_resolved, hget, hdata]
        rfl
    exact (h.tracks hredirect hmounted).fail hc hfail
  · obtain ⟨call, hcall, hfailed⟩ := h.gone hredirect hgone
    refine ⟨call, mem_set_of_ne hcall hc ?_, hfailed⟩
    rintro rfl
    cases hfailed

theorem Tracks.load (ht : Tracks s) (hloads : ∀ call ∈ s.calls.tail, isGet call.request = false) {c : Nat}
    {goalId : String} (hc : s.calls[c]? = some ⟨.get goalId, none⟩) {value : JsVal}
    (hsucceeded : Call.succeeded ⟨.get goalId, some (some value)⟩ = true) {goal : AddEditGoal.Goal}
    (hrenders : (AddEditGoal.render { s.tab.state with isLoading := false, goal := goal }).isOk = true) :
    Tracks ⟨s.tab.setState { s.tab.state with isLoading := false, goal := goal },
      s.calls.set c ⟨.get goalId, some (some value)⟩⟩ := by
  refine ⟨(any_loading_set hloads rfl hc hsucceeded).symm, ?_, ?_, fun call hcall hcs => ?_, hrenders⟩
  · rw [any_set_of_eq hc]
    · exact ht.updating
    · rfl
  · rw [any_set_of_eq hc]
    · exact ht.deleting
    · rfl
  · rcases List.mem_or_eq_of_mem_set hcall with hcall | rfl
    · exact ht.unanswered call hcall hcs
    · rfl

theorem Inv.settle_loaded (h : Inv s) {c : Nat} {goalId : String} (hc : s.calls[c]? = some ⟨.get goalId, none⟩)
    {value title content id : JsVal} (htitle : prop "title" value = .ok title)
    (hcontent : prop "content" value = .ok content) (hmounted : s.tab.mounted = true) :
    Inv ⟨s.tab.setState { s.tab.state with isLoading := false, goal := ⟨id, title, content⟩ },
      s.calls.set c ⟨.get goalId, some (some value)⟩⟩ := by
  refine ⟨loads_set h.loads hc, fun hredirect hstill => ?_, fun hredirect hgone => ?_⟩
  · have hrenders := (Bool.and_eq_true_iff.1 hstill).2
    have hdata := (renders_loaded htitle hcontent id hredirect).symm.trans hrenders
    exact (h.tracks hredirect hmounted).load h.loads hc hdata hrenders
  · refine ⟨_, List.mem_set (List.getElem?_eq_some_iff.1 hc).1 _, ?_⟩
    have hbefore : s.tab.state.redirect = "" := hredirect
    have hthrows : (s.tab.mounted && _) = false := hgone
    rw [hmounted, Bool.true_and, renders_loaded htitle hcontent _ hbefore] at hthrows
    rw [Call.failed, Call.succeeded_resolved, hthrows]
    rfl

theorem Inv.settle (h : Inv s) {c : Nat} {request : ApiRequest} (hc : s.calls[c]? = some ⟨request, none⟩)
    (result : Option JsVal) :
    Inv ⟨s.tab.onResult request result, s.calls.set c ⟨request, some result⟩⟩ := by
  rcases onResult_cases s.tab request result with ⟨heq, hwhy⟩ | ⟨value, state, rfl, hs, hmounted, heq⟩ <;> rw [heq]
  · exact h.settle_kept hc hwhy
  · cases hget : isGet request with
    | false =>
      have hne : ¬ (s.tab.setState state).state.redirect = "" := by
        rw [Tab.setState, onResponse_redirect hget hs]
        decide
      exact ⟨loads_set h.loads hc, fun hredirect => absurd hredirect hne, fun hredirect => absurd hredirect hne⟩
    | true =>
      obtain ⟨goalId, rfl⟩ : ∃ goalId, request = .get goalId := by
        cases request with
        | get goalId => exact ⟨goalId, rfl⟩
        | _ => cases hget
      obtain ⟨title, content, htitle, hcontent, rfl⟩ := onResponse_get hs
      exact h.settle_loaded hc htitle hcontent hmounted

theorem Inv.step (h : Inv s) (event : Event) : Inv (Editor.step event s).2 := by
  rcases step_cases event s with ⟨input, -, ha, hs⟩ | ⟨props, -, hs⟩ | ⟨c, result, request, -, hc, hs⟩ | hs <;> rw [hs]
  · exact h.input ha
  · refine ⟨h.loads, fun hredirect hmounted => ?_, h.gone⟩
    have ht := h.tracks hredirect hmounted
    exact ⟨ht.loading, ht.updating, ht.deleting, ht.unanswered, ht.renders⟩
  · exact h.settle hc result
  · exact h

end

theorem inv_after (user : String) (props : Props) (events : List Event) : Inv (after user props events) := by
  induction events using List.reverseRecOn with
  | nil => exact .mount user props
  | append_singleton events event ih =>
    rw [after, Machine.after_concat]
    exact ih.step event

/-! ### Recovery -/

theorem Session.quiet_iff (s : Session) :
    s.quiet = true ↔ s.tab.state.redirect = "" ∧ ∀ call ∈ s.calls, call.pending = false := by
  rw [quiet, Bool.and_eq_true, decide_eq_true_eq, Bool.not_eq_true', List.any_eq_false]
  simp only [Bool.not_eq_true]

theorem Tracks.not_failed {s : Session} (ht : Tracks s) (hshown : Shown s.tab) {call : Call} (hcall : call ∈ s.calls) :
    call.failed = false := by
  have hloading := List.any_eq_false.1 (ht.loading.symm.trans hshown.loading) call hcall
  have hupdating := List.any_eq_false.1 (ht.updating.symm.trans hshown.updating) call hcall
  have hdeleting := List.any_eq_false.1 (ht.deleting.symm.trans hshown.deleting) call hcall
  have hsucceeded : call.succeeded = true := by
    cases hrequest : call.request with
    | get goalId => simpa [hrequest, isGet] using hloading
    | put goalId body => simp [hrequest, isSave] at hupdating
    | post body => simp [hrequest, isSave] at hupdating
    | del goalId => simp [hrequest, isDelete] at hdeleting
  rw [Call.failed, hsucceeded, Bool.not_true, Bool.and_false]

theorem Tracks.shown {s : Session} (ht : Tracks s) (hredirect : s.tab.state.redirect = "")
    (hmounted : s.tab.mounted = true) (hsucceeded : ∀ call ∈ s.calls, call.succeeded = true) : Shown s.tab := by
  have hget : ∀ call ∈ s.calls, isGet call.request = true := fun call hcall =>
    ht.unanswered call hcall (hsucceeded call hcall)
  have hloading : s.tab.state.isLoading = false := by
    rw [ht.loading, List.any_eq_false]
    intro call hcall
    simp [hsucceeded call hcall]
  have hupdating : s.tab.state.isUpdating = false := by
    rw [ht.updating, List.any_eq_false]
    intro call hcall
    cases hrequest : call.request <;> simp [isSave]
    all_goals exact absurd (hget call hcall) (by simp [hrequest, isGet])
  have hdeleting : s.tab.state.isDeleting = false := by
    rw [ht.deleting, List.any_eq_false]
    intro call hcall
    cases hrequest : call.request <;> simp [isDelete]
    exact absurd (hget call hcall) (by simp [hrequest, isGet])
  have hgoal := ((renders_iff hredirect).1 ht.renders).resolve_left (by simp [hloading])
  obtain ⟨form, -, hrender⟩ := AddEditGoal.render_form hredirect hloading (Bool.and_eq_true_iff.2 hgoal)
  exact ⟨hloading, hupdating, hdeleting, hmounted, form, hrender⟩

/-- A quiet editor shows its form exactly if none of its calls has failed. -/
theorem Inv.shown_iff {s : Session} (h : Inv s) (hquiet : s.quiet = true) :
    Shown s.tab ↔ ∀ call ∈ s.calls, call.failed = false := by
  obtain ⟨hredirect, hsettled⟩ := s.quiet_iff.1 hquiet
  constructor
  · intro hshown call hcall
    exact (h.tracks hredirect hshown.form.1).not_failed hshown hcall
  · intro hfailed
    have hsucceeded : ∀ call ∈ s.calls, call.succeeded = true := by
      intro call hcall
      have hf := hfailed call hcall
      rw [Call.failed, hsettled call hcall, Bool.not_false, Bool.true_and] at hf
      simpa using hf
    cases hmounted : s.tab.mounted with
    | false =>
      obtain ⟨call, hcall, hf⟩ := h.gone hredirect hmounted
      exact absurd ((hfailed call hcall).symm.trans hf) (by decide)
    | true => exact (h.tracks hredirect hmounted).shown hredirect hmounted hsucceeded

/-- If nothing is pending and the editor has not redirected, its flags are down and its form is there. -/
def Recovers (s : Session) : Prop := s.quiet = true → Shown s.tab

/-- The editor recovers throughout a run exactly if no call of it has failed by the time that nothing is
pending and it has not redirected. -/
theorem recovers_iff (user : String) (props : Props) (events : List Event) :
    (∀ p, p <+: events → Recovers (after user props p)) ↔
      ∀ p, p <+: events → (after user props p).quiet = true →
        ∀ call ∈ (after user props p).calls, call.failed = false :=
  forall₃_congr fun p _ hquiet => (inv_after user props p).shown_iff hquiet

/-- The load of a goal is rejected: the spinner stays. -/
theorem rejected_load_not_recovers : ¬ Recovers (after "u" (some "g") [.settle 0 none]) := by
  intro h
  cases (h rfl).loading

end Editor

end FullStack
