import FullStack.Editor

/-!
# Which goal an edit goes to

An editor takes the goal of a request from the route at the time it sends it, and everything else from
the time it was mounted: whether it saves or creates, and what it has loaded. So its requests go to the
goal that it shows exactly if the route names the same goal, or none, when they are sent
(`editsOwnGoal_iff`).
-/

namespace FullStack

namespace Editor

open AddEditGoal (ApiRequest Props State Input Field Goal)
open Client (Tab accepts_cases)

def namedGoal (props : Props) : Option String := props.filter (· ≠ "")

structure Loaded where
  goalId : String
  title : JsVal
  content : JsVal

def Loaded.edit (field : Field) (value : String) (l : Loaded) : Loaded :=
  match field with
  | .title => { l with title := some (.str value) }
  | .content => { l with content := some (.str value) }

def Loaded.body (l : Loaded) : Json := .obj (definedMembers [("title", l.title), ("content", l.content)])

def loadedStep (loaded : Option Loaded) : Effect → Option Loaded
  | .edited field value => loaded.map (Loaded.edit field value)
  | .received (.get goalId) value =>
    match prop "title" value, prop "content" value with
    | .ok title, .ok content => some ⟨goalId, title, content⟩
    | _, _ => loaded
  | _ => loaded

/-- What the last GET has returned, with the edits that followed. -/
def lastLoaded (log : List (Event × Effect)) : Option Loaded :=
  log.foldl (fun loaded entry => loadedStep loaded entry.2) none

def log (user : String) (props : Props) (events : List Event) : List (Event × Effect) :=
  (Machine.runAll step events (mount user props)).1

structure Shows (goal : Goal) (l : Loaded) : Prop where
  title : goal.title = l.title
  content : goal.content = l.content

/-- A save sends what was loaded of its goal, with the edits; a delete is of the goal that is shown; and
a goal is created where the route names none. -/
def OwnGoal (loaded : Option Loaded) (tab : Tab) : ApiRequest → Prop
  | .get _ => True
  | .put goalId body => namedGoal tab.props = some goalId ∧ ∃ l, loaded = some l ∧ l.goalId = goalId ∧ body = l.body
  | .post _ => namedGoal tab.props = none
  | .del goalId =>
    namedGoal tab.props = some goalId ∧ ∃ l, loaded = some l ∧ l.goalId = goalId ∧ Shows tab.state.goal l

def EditsOwnGoal (user : String) (props : Props) (events : List Event) : Prop :=
  ∀ before event rest request, events = before ++ event :: rest →
    (step event (after user props before)).1 = .sent request →
    OwnGoal (lastLoaded (log user props before)) (after user props before).tab request

def submits : Event → Session → Bool
  | .input .submit, s => s.tab.accepts .submit
  | .input .confirmDelete, s => s.tab.accepts .confirmDelete
  | _, _ => false

/-- At every submit and every confirmed delete, the route names the goal it named when the editor was
mounted. -/
def StaysOnGoal (user : String) (props : Props) (events : List Event) : Prop :=
  ∀ before event rest, events = before ++ event :: rest →
    submits event (after user props before) = true →
    namedGoal (after user props before).tab.props = namedGoal props

/-- `origin` is the goal that the route named when the editor was mounted. -/
structure RouteInv (origin : Option String) (loaded : Option Loaded) (s : Session) : Prop where
  existing : s.tab.state.isExistingGoal = origin.isSome
  loads : ∀ call ∈ s.calls, ∀ goalId, call.request = .get goalId → origin = some goalId
  dialog : s.tab.state.showDeleteModal = true → s.tab.state.isLoading = false ∧ origin.isSome = true
  contents : s.tab.state.redirect = "" → s.tab.mounted = true → s.tab.state.isLoading = false →
    ∀ goalId, origin = some goalId → ∃ l, loaded = some l ∧ l.goalId = goalId ∧ Shows s.tab.state.goal l

section
variable {origin : Option String} {loaded : Option Loaded} {s : Session}

theorem namedGoal_eq_some {props : Props} {goalId : String} :
    namedGoal props = some goalId ↔ props = some goalId ∧ goalId ≠ "" := by
  rw [namedGoal, Option.filter_eq_some_iff, decide_eq_true_eq]

theorem RouteInv.mount (user : String) (props : Props) : RouteInv (namedGoal props) none (Editor.mount user props) := by
  cases props with
  | none =>
    refine ⟨rfl, List.forall_mem_nil _, fun hmodal => ?_, fun _ _ _ goalId horigin => ?_⟩
    · cases hmodal
    · cases horigin
  | some id =>
    by_cases hid : id = ""
    · subst hid
      refine ⟨rfl, List.forall_mem_nil _, fun hmodal => ?_, fun _ _ _ goalId horigin => ?_⟩
      · cases hmodal
      · cases horigin
    · have hnamed : namedGoal (some id) = some id := namedGoal_eq_some.2 ⟨rfl, hid⟩
      rw [Editor.mount, AddEditGoal.componentDidMount, if_neg hid, hnamed]
      refine ⟨rfl, fun call hcall goalId hget => ?_, fun hmodal => ?_, fun _ _ hloading => ?_⟩
      · rw [List.mem_singleton.1 hcall] at hget
        cases hget
        rfl
      · cases hmodal
      · cases hloading

theorem RouteInv.accepts (h : RouteInv origin loaded s) {input : Input} (ha : s.tab.accepts input = true)
    (hcancel : input ≠ .cancel) :
    s.tab.state.isLoading = false ∧
      (input = .openDelete ∨ input = .closeDelete ∨ input = .confirmDelete → origin.isSome = true) := by
  obtain ⟨-, -, form, hrender, hview⟩ := accepts_cases ha
  have hform : form.isSome = true → s.tab.state.isLoading = false := by
    intro hsome
    obtain ⟨f, rfl⟩ := Option.isSome_iff_exists.1 hsome
    exact (form_of_render hrender).1
  cases input with
  | change field value => exact ⟨hform hview, by simp⟩
  | submit =>
    refine ⟨hform ?_, by simp⟩
    cases form with
    | none => cases hview
    | some f => rfl
  | cancel => exact absurd rfl hcancel
  | openDelete =>
    cases form with
    | none => cases hview
    | some f =>
      obtain ⟨hloading, hbutton⟩ := form_of_render hrender
      refine ⟨hloading, fun _ => ?_⟩
      rw [← h.existing, ← hbutton]
      exact hview
  | closeDelete => exact (h.dialog hview).imp_right fun hsome _ => hsome
  | confirmDelete => exact (h.dialog hview).imp_right fun hsome _ => hsome

theorem loads_sendCall {calls : List Call} (h : ∀ call ∈ calls, ∀ goalId, call.request = .get goalId → origin = some goalId)
    {request : ApiRequest} (hget : isGet request = false) :
    ∀ call ∈ sendCall calls (some request), ∀ goalId, call.request = .get goalId → origin = some goalId := by
  intro call hcall goalId hrequest
  rcases List.mem_append.1 hcall with hcall | hcall
  · exact h call hcall goalId hrequest
  · rw [List.mem_singleton.1 hcall] at hrequest
    subst hrequest
    cases hget

theorem RouteInv.input (h : RouteInv origin loaded s) {input : Input} (ha : s.tab.accepts input = true) :
    RouteInv origin (loadedStep loaded (inputEffect input (AddEditGoal.handle s.tab.props s.tab.state input).2))
      ⟨s.tab.setState (AddEditGoal.handle s.tab.props s.tab.state input).1,
        sendCall s.calls (AddEditGoal.handle s.tab.props s.tab.state input).2⟩ := by
  obtain ⟨hmounted, hredirect, -⟩ := accepts_cases ha
  have hcontents := h.contents hredirect hmounted
  cases input with
  | change field value =>
    obtain ⟨hloading, -⟩ := h.accepts ha (by rintro ⟨⟩)
    cases field with
    | title =>
      refine ⟨h.existing, h.loads, h.dialog, fun _ _ _ goalId horigin => ?_⟩
      obtain ⟨l, rfl, hgoal, hshows⟩ := hcontents hloading goalId horigin
      exact ⟨_, rfl, hgoal, rfl, hshows.content⟩
    | content =>
      refine ⟨h.existing, h.loads, h.dialog, fun _ _ _ goalId horigin => ?_⟩
      obtain ⟨l, rfl, hgoal, hshows⟩ := hcontents hloading goalId horigin
      exact ⟨_, rfl, hgoal, hshows.title, rfl⟩
  | submit =>
    exact ⟨h.existing, loads_sendCall h.loads (isGet_handleSubmit _ _), h.dialog, fun _ _ => hcontents⟩
  | cancel =>
    have hgone : ¬ "/" = "" := by decide
    exact ⟨h.existing, h.loads, h.dialog, fun hr => absurd hr hgone⟩
  | openDelete =>
    obtain ⟨hloading, hsome⟩ := h.accepts ha (by rintro ⟨⟩)
    exact ⟨h.existing, h.loads, fun _ => ⟨hloading, hsome (.inl rfl)⟩, fun _ _ => hcontents⟩
  | closeDelete => exact ⟨h.existing, h.loads, fun hmodal => (Bool.false_ne_true hmodal).elim, fun _ _ => hcontents⟩
  | confirmDelete => exact ⟨h.existing, loads_sendCall h.loads rfl, h.dialog, fun _ _ => hcontents⟩

theorem loadedStep_error {props : Props} {request : ApiRequest} {value : JsVal} {state : State} {e : JsError}
    (h : AddEditGoal.onResponse props request value state = .error e) :
    loadedStep loaded (.received request value) = loaded := by
  obtain ⟨goalId, rfl, hthrown⟩ := AddEditGoal.onResponse_error_cases h
  rw [loadedStep]
  rcases hthrown with htitle | ⟨title, htitle, hcontent⟩
  · rw [htitle]
  · rw [htitle, hcontent]

theorem RouteInv.settle (h : RouteInv origin loaded s) {c : Nat} {request : ApiRequest}
    (hc : s.calls[c]? = some ⟨request, none⟩) (result : Option JsVal) :
    RouteInv origin (loadedStep loaded (receivedEffect request result))
      ⟨s.tab.onResult request result, s.calls.set c ⟨request, some result⟩⟩ := by
  have hloads : ∀ call ∈ s.calls.set c ⟨request, some result⟩, ∀ goalId, call.request = .get goalId →
      origin = some goalId := by
    intro call hcall goalId hget
    rcases List.mem_or_eq_of_mem_set hcall with hcall | rfl
    · exact h.loads call hcall goalId hget
    · exact h.loads _ (List.mem_of_getElem? hc) goalId hget
  rcases onResult_cases s.tab request result with ⟨heq, hwhy⟩ | ⟨value, state, rfl, hs, hmounted, heq⟩ <;> rw [heq]
  · refine ⟨h.existing, hloads, h.dialog, fun hredirect hmounted hloading => ?_⟩
    have hsame : loadedStep loaded (receivedEffect request result) = loaded := by
      rcases hwhy with rfl | hgone | ⟨value, e, rfl, he⟩
      · rfl
      · exact absurd (hmounted.symm.trans hgone) (by decide)
      · exact loadedStep_error he
    rw [hsame]
    exact h.contents hredirect hmounted hloading
  · have hgone : ¬ "/" = "" := by decide
    cases request with
    | get goalId =>
      obtain ⟨title, content, htitle, hcontent, rfl⟩ := onResponse_get hs
      refine ⟨h.existing, hloads, fun hmodal => ⟨rfl, (h.dialog hmodal).2⟩, fun _ _ _ goalId' horigin => ?_⟩
      have horigin' := h.loads _ (List.mem_of_getElem? hc) goalId rfl
      refine ⟨⟨goalId, title, content⟩, ?_, Option.some.inj (horigin'.symm.trans horigin), rfl, rfl⟩
      rw [receivedEffect, loadedStep, htitle, hcontent]
    | put goalId body =>
      cases hs
      exact ⟨h.existing, hloads, h.dialog, fun hr => absurd hr hgone⟩
    | post body =>
      cases hs
      exact ⟨h.existing, hloads, h.dialog, fun hr => absurd hr hgone⟩
    | del goalId =>
      cases hs
      exact ⟨h.existing, hloads, fun hmodal => (Bool.false_ne_true hmodal).elim, fun hr => absurd hr hgone⟩

theorem RouteInv.step (h : RouteInv origin loaded s) (event : Event) :
    RouteInv origin (loadedStep loaded (Editor.step event s).1) (Editor.step event s).2 := by
  rcases step_cases event s with ⟨input, -, ha, hs⟩ | ⟨props, -, hs⟩ | ⟨c, result, request, -, hc, hs⟩ | hs <;> rw [hs]
  · exact h.input ha
  · exact ⟨h.existing, h.loads, h.dialog, h.contents⟩
  · exact h.settle hc result
  · exact h

end

theorem routeInv_after (user : String) (props : Props) (events : List Event) :
    RouteInv (namedGoal props) (lastLoaded (log user props events)) (after user props events) := by
  induction events using List.reverseRecOn with
  | nil => exact .mount user props
  | append_singleton events event ih =>
    rw [after, Machine.after_concat, log, Machine.runAll_concat, lastLoaded, List.foldl_append]
    exact ih.step event

section
variable {origin : Option String} {loaded : Option Loaded} {s : Session}

theorem idText_of_namedGoal {props : Props} {goalId : String} (h : namedGoal props = some goalId) :
    AddEditGoal.idText props = goalId := by
  rw [(namedGoal_eq_some.1 h).1]
  rfl

theorem goalBody_of_shows {goal : Goal} {l : Loaded} (h : Shows goal l) : AddEditGoal.goalBody goal = l.body := by
  rw [AddEditGoal.goalBody, Loaded.body, h.title, h.content]

/-- What is sent goes to the editor's own goal exactly if the route still names it. -/
theorem RouteInv.ownGoal_iff (h : RouteInv origin loaded s) {input : Input} (ha : s.tab.accepts input = true)
    {request : ApiRequest} (hsent : (AddEditGoal.handle s.tab.props s.tab.state input).2 = some request) :
    OwnGoal loaded s.tab request ↔ namedGoal s.tab.props = origin := by
  obtain ⟨hmounted, hredirect, -⟩ := accepts_cases ha
  cases input with
  | submit =>
    have hcontents := h.contents hredirect hmounted (h.accepts ha (by rintro ⟨⟩)).1
    cases hsent
    rw [AddEditGoal.handleSubmit, h.existing]
    cases horigin : origin with
    | none => exact Iff.rfl
    | some goalId =>
      obtain ⟨l, rfl, hgoal, hshows⟩ := hcontents goalId horigin
      constructor
      · rintro ⟨hnamed, l', hl', hgoal', -⟩
        cases hl'
        rw [hnamed, ← hgoal', hgoal]
      · intro hnamed
        have hid := idText_of_namedGoal hnamed
        exact ⟨hnamed.trans (congrArg some hid.symm), l, rfl, hgoal.trans hid.symm, goalBody_of_shows hshows⟩
  | confirmDelete =>
    obtain ⟨hloading, hsome⟩ := h.accepts ha (by rintro ⟨⟩)
    obtain ⟨goalId, horigin⟩ := Option.isSome_iff_exists.1 (hsome (.inr (.inr rfl)))
    obtain ⟨l, rfl, hgoal, hshows⟩ := h.contents hredirect hmounted hloading goalId horigin
    cases hsent
    rw [horigin]
    constructor
    · rintro ⟨hnamed, l', hl', hgoal', -⟩
      cases hl'
      rw [hnamed, ← hgoal', hgoal]
    · intro hnamed
      have hid := idText_of_namedGoal hnamed
      exact ⟨hnamed.trans (congrArg some hid.symm), l, rfl, hgoal.trans hid.symm, hshows⟩
  | _ => cases hsent

theorem sent_cases {event : Event} {request : ApiRequest} (h : (Editor.step event s).1 = .sent request) :
    submits event s = true ∧ ∃ input, s.tab.accepts input = true ∧
      (AddEditGoal.handle s.tab.props s.tab.state input).2 = some request := by
  rcases step_cases event s with ⟨input, rfl, ha, hs⟩ | ⟨props, -, hs⟩ | ⟨c, result, r, -, -, hs⟩ | hs <;> rw [hs] at h
  · cases input with
    | submit =>
      cases h
      exact ⟨ha, .submit, ha, rfl⟩
    | confirmDelete =>
      cases h
      exact ⟨ha, .confirmDelete, ha, rfl⟩
    | _ => cases h
  · cases h
  · cases result <;> cases h
  · cases h

theorem sent_of_submits {event : Event} (h : submits event s = true) :
    ∃ request input, s.tab.accepts input = true ∧
      (AddEditGoal.handle s.tab.props s.tab.state input).2 = some request ∧
      (Editor.step event s).1 = .sent request := by
  cases event with
  | input input =>
    cases input with
    | submit => exact ⟨_, .submit, h, rfl, congrArg Prod.fst (if_pos h)⟩
    | confirmDelete => exact ⟨_, .confirmDelete, h, rfl, congrArg Prod.fst (if_pos h)⟩
    | _ => cases h
  | navigate props => cases h
  | settle c result => cases h

end

/-- The requests of a run go to the editor's own goal exactly if the route names, at every submit and
every confirmed delete, the goal that it named when the editor was mounted. -/
theorem editsOwnGoal_iff (user : String) (props : Props) (events : List Event) :
    EditsOwnGoal user props events ↔ StaysOnGoal user props events := by
  constructor
  · intro h before event rest hevents hsubmits
    obtain ⟨request, input, ha, hsent, heffect⟩ := sent_of_submits hsubmits
    exact ((routeInv_after user props before).ownGoal_iff ha hsent).1 (h before event rest request hevents heffect)
  · intro h before event rest request hevents heffect
    obtain ⟨hsubmits, input, ha, hsent⟩ := sent_cases heffect
    exact ((routeInv_after user props before).ownGoal_iff ha hsent).2 (h before event rest hevents hsubmits)

/-- The contents of the goal `A` are sent to the goal `B`. -/
theorem history_jump_not_editsOwnGoal :
    ¬ EditsOwnGoal "u" (some "A")
      [.settle 0 (some (some (.obj [("title", .str "run"), ("content", .str "5 km")]))),
        .navigate (some "B"), .input .submit] := by
  intro h
  obtain ⟨-, l, hl, hgoal, -⟩ := h [_, _] _ [] _ rfl rfl
  cases hl
  exact absurd hgoal (by decide)

end Editor

end FullStack
