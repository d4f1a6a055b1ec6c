import FullStack.AddEditGoal
import FullStack.ApiAnswer
import FullStack.Home
import FullStack.ReadPaths

/-!
# The web client against the goals API

Any number of goal editors, of any users, work on one table: `World` holds the table, the editors and
their API calls in flight. A call is served by the handlers, on the texts that travel, and its result
arrives later, in any order, or it gets lost. Every value an editor writes went through its form
(`Inv`), so every stored goal has a title and a content (`run_inv`), and the list of goals of any user
is rendered in every reachable state (`goals_list_renders`).
-/

namespace FullStack

namespace Client

open AddEditGoal (ApiRequest Props State View Input)

def invocation (user : String) (request : ApiRequest) (context : Context) (outcome : Option AwsError) : Invocation :=
  match request with
  | .get goalId => ⟨.getGoal, ⟨user, ⟨goalId⟩, none⟩, context, outcome⟩
  | .put goalId body => ⟨.updateGoal, ⟨user, ⟨goalId⟩, some body.stringify⟩, context, outcome⟩
  | .post body => ⟨.createGoal, ⟨user, ⟨""⟩, some body.stringify⟩, context, outcome⟩
  | .del goalId => ⟨.deleteGoal, ⟨user, ⟨goalId⟩, none⟩, context, outcome⟩

def responseData : Body → JsVal
  | .text s => some ((Json.parse s).getD (.str s))
  | _ => some (.str "")

/-- What the promise of a call comes to: its data, or a rejection unless the status is 200. -/
def apiResult (o : Outcome) : Option JsVal :=
  match o.responses with
  | r :: _ => if proxyStatus o = 200 then some (responseData r.body) else none
  | [] => none

/-- An editor in some tab. It is mounted until its route is left or its `render` throws. -/
structure Tab where
  user : String
  props : Props
  state : State
  mounted : Bool

/-- An API call of the editor in `tab`. Its promise comes to `result`, data or a rejection, once the call
has been served or lost; a call that the client has given up may still be served. -/
structure ApiCall where
  tab : Nat
  user : String
  request : ApiRequest
  served : Bool
  result : Option (Option JsVal)
  arrived : Bool

structure World where
  table : Table
  tabs : List Tab
  calls : List ApiCall

def World.init : World := ⟨.empty, [], []⟩

inductive Action where
  | mount (user : String) (props : Props)
  | input (tab : Nat) (input : Input)
  | navigate (tab : Nat) (props : Props)
  | leave (tab : Nat)
  | serve (call : Nat) (context : Context) (outcome : Option AwsError)
  | lose (call : Nat)
  | arrive (call : Nat)

def Tab.setState (tab : Tab) (state : State) : Tab :=
  { tab with
    state := state
    mounted := tab.mounted && (AddEditGoal.render state).isOk }

def Tab.accepts (tab : Tab) (input : Input) : Bool :=
  match AddEditGoal.render tab.state with
  | .ok view => tab.mounted && view.accepts input
  | .error _ => false

/-- The `then` callback of a call, which has no effect on an editor that is gone. -/
def Tab.onResult (tab : Tab) (request : ApiRequest) (result : Option JsVal) : Tab :=
  match result with
  | none => tab
  | some value =>
    match AddEditGoal.onResponse tab.props request value tab.state with
    | .ok state => if tab.mounted then tab.setState state else tab
    | .error _ => tab

def send (calls : List ApiCall) (tab : Nat) (user : String) : Option ApiRequest → List ApiCall
  | none => calls
  | some request => calls ++ [⟨tab, user, request, false, none, false⟩]

/-- One action; one that is not enabled changes nothing. -/
def World.step (w : World) : Action → World
  | .mount user props =>
    let (state, request) := AddEditGoal.componentDidMount props AddEditGoal.initialState
    { w with
      tabs := w.tabs ++ [Tab.setState ⟨user, props, AddEditGoal.initialState, true⟩ state]
      calls := send w.calls w.tabs.length user request }
  | .input i input =>
    match w.tabs[i]? with
    | some tab =>
      if tab.accepts input then
        let (state, request) := AddEditGoal.handle tab.props tab.state input
        { w with
          tabs := w.tabs.set i (tab.setState state)
          calls := send w.calls i tab.user request }
      else w
    | none => w
  | .navigate i props =>
    match w.tabs[i]? with
    | some tab => { w with tabs := w.tabs.set i { tab with props := props } }
    | none => w
  | .leave i =>
    match w.tabs[i]? with
    | some tab => { w with tabs := w.tabs.set i { tab with mounted := false } }
    | none => w
  | .serve c context outcome =>
    match w.calls[c]? with
    | some call =>
      if call.served then w
      else
        let (o, table) := invoke (invocation call.user call.request context outcome) w.table
        { w with
          table := table
          calls := w.calls.set c { call with served := true, result := call.result.or (some (apiResult o)) } }
    | none => w
  | .lose c =>
    match w.calls[c]? with
    | some call => { w with calls := w.calls.set c { call with result := some none } }
    | none => w
  | .arrive c =>
    match w.calls[c]? with
    | some call =>
      match call.arrived, call.result with
      | false, some result =>
        { w with
          tabs := match w.tabs[call.tab]? with
            | some tab => w.tabs.set call.tab (tab.onResult call.request result)
            | none => w.tabs
          calls := w.calls.set c { call with arrived := true } }
      | _, _ => w
    | none => w

def World.run (actions : List Action) (w : World) : World := actions.foldl World.step w

/-! ### What a step can do -/

def servedWorld (w : World) (c : Nat) (call : ApiCall) (context : Context) (outcome : Option AwsError) : World :=
  let (o, table) := invoke (invocation call.user call.request context outcome) w.table
  { w with
    table := table
    calls := w.calls.set c { call with served := true, result := call.result.or (some (apiResult o)) } }

/-- What a step can do. -/
inductive Does (w : World) : Action → World → Prop
  | mount (user : String) (props : Props) : Does w (.mount user props) (w.step (.mount user props))
  | input {i : Nat} {tab : Tab} {input : Input} (htab : w.tabs[i]? = some tab) (ha : tab.accepts input = true) :
    Does w (.input i input) { w with
      tabs := w.tabs.set i (tab.setState (AddEditGoal.handle tab.props tab.state input).1)
      calls := send w.calls i tab.user (AddEditGoal.handle tab.props tab.state input).2 }
  | route {a : Action} {i : Nat} {tab tab' : Tab} (htab : w.tabs[i]? = some tab) (huser : tab'.user = tab.user)
    (hstate : tab'.state = tab.state) : Does w a { w with tabs := w.tabs.set i tab' }
  | serve {c : Nat} {call : ApiCall} (context : Context) (outcome : Option AwsError)
    (hcall : w.calls[c]? = some call) (hserved : call.served = false) :
    Does w (.serve c context outcome) (servedWorld w c call context outcome)
  | lose {c : Nat} {call : ApiCall} (hcall : w.calls[c]? = some call) :
    Does w (.lose c) { w with calls := w.calls.set c { call with result := some none } }
  | arrive {c : Nat} {call : ApiCall} (hcall : w.calls[c]? = some call) {result : Option JsVal}
    (hresult : call.result = some result) :
    Does w (.arrive c) { w with
      tabs := match w.tabs[call.tab]? with
        | some tab => w.tabs.set call.tab (tab.onResult call.request result)
        | none => w.tabs
      calls := w.calls.set c { call with arrived := true } }
  | nothing (a : Action) : Does w a w

theorem does_step (w : World) (a : Action) : Does w a (w.step a) := by
  cases a with
  | mount user props => exact .mount user props
  | input i input =>
    rw [World.step]
    cases htab : w.tabs[i]? with
    | none => exact .nothing _
    | some tab =>
      by_cases ha : tab.accepts input = true
      · simp only [if_pos ha]
        exact .input htab ha
      · simp only [if_neg ha]
        exact .nothing _
  | navigate i props =>
    rw [World.step]
    cases htab : w.tabs[i]? with
    | none => exact .nothing _
    | some tab => exact .route htab rfl rfl
  | leave i =>
    rw [World.step]
    cases htab : w.tabs[i]? with
    | none => exact .nothing _
    | some tab => exact .route htab rfl rfl
  | serve c context outcome =>
    rw [World.step]
    cases hcall : w.calls[c]? with
    | none => exact .nothing _
    | some call =>
      cases hserved : call.served with
      | true =>
        simp only [hserved, if_true]
        exact .nothing _
      | false =>
        simp only [hserved, Bool.false_eq_true, if_false]
        exact .serve context outcome hcall hserved
  | lose c =>
    rw [World.step]
    cases hcall : w.calls[c]? with
    | none => exact .nothing _
    | some call => exact .lose hcall
  | arrive c =>
    rw [World.step]
    cases hcall : w.calls[c]? with
    | none => exact .nothing _
    | some call =>
      simp only
      split
      next _ _ _ hresult => exact .arrive hcall hresult
      next => exact .nothing _

def Filled (v : JsVal) : Prop := ∃ s, s ≠ "" ∧ v = some (.str s)

def Textual (v : JsVal) : Prop := v = none ∨ ∃ s, v = some (.str s)

def FilledItem (a : Attributes) : Prop := Filled (a.find? "title") ∧ Filled (a.find? "content")

def FilledTable (t : Table) : Prop := ∀ k a, t.find? k = some a → FilledItem a

/-- A body that an editor sends has two non-empty strings. -/
def FilledBody (body : Json) : Prop :=
  ∃ title content, title ≠ "" ∧ content ≠ "" ∧ body = .obj [("title", .str title), ("content", .str content)]

def FilledRequest : ApiRequest → Prop
  | .put _ body => FilledBody body
  | .post body => FilledBody body
  | _ => True

def TextualData (value : JsVal) : Prop :=
  ∀ title content, prop "title" value = .ok title → prop "content" value = .ok content → Textual title ∧ Textual content

theorem Filled.textual {v : JsVal} (h : Filled v) : Textual v := .inr (h.imp fun _ hs => hs.2)

theorem filled_of_nonEmpty {v : JsVal} (hv : Textual v) (h : AddEditGoal.nonEmpty v = .ok true) : Filled v := by
  rcases hv with rfl | ⟨s, rfl⟩
  · cases h
  · refine ⟨s, fun hs => ?_, rfl⟩
    subst hs
    cases h

theorem accepts_cases {tab : Tab} {input : Input} (h : tab.accepts input = true) :
    tab.mounted = true ∧ tab.state.redirect = "" ∧
      ∃ form, AddEditGoal.render tab.state = .ok (.page form tab.state.showDeleteModal) ∧
        (View.page form tab.state.showDeleteModal).accepts input = true := by
  rw [Tab.accepts] at h
  cases hr : AddEditGoal.render tab.state with
  | error e => rw [hr] at h; cases h
  | ok view =>
    rw [hr, Bool.and_eq_true] at h
    obtain ⟨hmounted, hview⟩ := h
    rw [AddEditGoal.render] at hr
    split_ifs at hr with hredirect hloading
    · cases hr
      cases hview
    · cases hr
      exact ⟨hmounted, not_not.1 hredirect, none, rfl, hview⟩
    · obtain ⟨form, -, hr⟩ := bind_eq_ok.1 hr
      cases hr
      exact ⟨hmounted, not_not.1 hredirect, form, rfl, hview⟩

theorem validateForm_of_accepts {tab : Tab} (h : tab.accepts .submit = true) :
    AddEditGoal.validateForm tab.state = .ok true := by
  obtain ⟨-, -, form, hr, henabled⟩ := accepts_cases h
  cases form with
  | none => cases henabled
  | some form =>
    rw [AddEditGoal.validateForm_of_renderForm (AddEditGoal.renderForm_of_render hr)]
    exact congrArg Except.ok henabled

theorem filledBody_of_accepts {tab : Tab} (ht : Textual tab.state.goal.title) (hc : Textual tab.state.goal.content)
    (h : tab.accepts .submit = true) : FilledBody (AddEditGoal.goalBody tab.state.goal) := by
  obtain ⟨htitle, hcontent⟩ := AddEditGoal.validateForm_eq_true (validateForm_of_accepts h)
  obtain ⟨title, htne, ht⟩ := filled_of_nonEmpty ht htitle
  obtain ⟨content, hcne, hc⟩ := filled_of_nonEmpty hc hcontent
  exact ⟨title, content, htne, hcne, by rw [AddEditGoal.goalBody, ht, hc]; rfl⟩

theorem bodyFields_filled {body : Json} (h : FilledBody body) :
    ∃ title content, Filled title ∧ Filled content ∧ bodyFields (some body.stringify) = .ok (title, content) := by
  obtain ⟨title, content, htne, hcne, rfl⟩ := h
  refine ⟨_, _, ⟨title, htne, rfl⟩, ⟨content, hcne, rfl⟩, ?_⟩
  rw [bodyFields, jsonParse_stringify]
  rfl

theorem orNull_filled {v : JsVal} (h : Filled v) : some (UpdateGoal.orNull v) = v := by
  obtain ⟨s, hs, rfl⟩ := h
  simp [UpdateGoal.orNull, hs]

theorem filledItem_created {fields : JsVal × JsVal} (ht : Filled fields.1) (hc : Filled fields.2) (now : Nat) :
    FilledItem (createdAttributes fields now) := by
  rw [FilledItem, find?_created_title, find?_created_content]
  exact ⟨ht, hc⟩

theorem filledItem_updated {fields : JsVal × JsVal} (ht : Filled fields.1) (hc : Filled fields.2) (a : Attributes) :
    FilledItem (updatedAttributes a fields) := by
  rw [FilledItem, find?_updated_title, find?_updated_content, orNull_filled ht, orNull_filled hc]
  exact ⟨ht, hc⟩

theorem FilledTable.insert {t : Table} (h : FilledTable t) (k : Key) {a : Attributes} (ha : FilledItem a) :
    FilledTable (t.insert k a) := by
  intro k' a' hk'
  rw [SortedMap.find?_insert] at hk'
  split_ifs at hk'
  · obtain rfl := Option.some.inj hk'
    exact ha
  · exact h k' a' hk'

theorem FilledTable.erase {t : Table} (h : FilledTable t) (k : Key) : FilledTable (t.erase k) := by
  intro k' a' hk'
  rw [SortedMap.find?_erase] at hk'
  split_ifs at hk'
  exact h k' a' hk'

/-- Serving a call keeps the stored titles and contents non-empty, on re-created items too. -/
theorem invoke_filled {request : ApiRequest} (hr : FilledRequest request) {t : Table} (ht : FilledTable t)
    (user : String) (context : Context) (outcome : Option AwsError) :
    FilledTable (invoke (invocation user request context outcome) t).2 := by
  have hbody : ∀ fields, bodyFields (invocation user request context outcome).event.body = .ok fields →
      (invocation user request context outcome).fn = .createGoal ∨
        (invocation user request context outcome).fn = .updateGoal → Filled fields.1 ∧ Filled fields.2 := by
    intro fields hf hfn
    cases request with
    | put goalId body =>
      obtain ⟨title, content, h1, h2, h⟩ := bodyFields_filled hr
      cases hf.symm.trans h
      exact ⟨h1, h2⟩
    | post body =>
      obtain ⟨title, content, h1, h2, h⟩ := bodyFields_filled hr
      cases hf.symm.trans h
      exact ⟨h1, h2⟩
    | get goalId => simp [invocation] at hfn
    | del goalId => simp [invocation] at hfn
  rcases (invocation user request context outcome).table_cases t with ⟨h, -⟩ | ⟨fields, hfn, -, hf, h⟩ |
    ⟨fields, hfn, -, hf, h⟩ | ⟨-, -, h⟩ <;> rw [h]
  · exact ht
  · obtain ⟨h1, h2⟩ := hbody fields hf (.inl hfn)
    exact ht.insert _ (filledItem_created h1 h2 _)
  · obtain ⟨h1, h2⟩ := hbody fields hf (.inr hfn)
    exact ht.insert _ (filledItem_updated h1 h2 _)
  · exact ht.erase _

theorem apiResult_failed (e : AwsError) : apiResult (failed e) = none := by
  simp [apiResult, failed, proxyStatus, Response.proxyFormat, Body.isText]

theorem apiResult_succeeded {body : Body} (h : body.isText) : apiResult (succeeded body) = some (responseData body) :=
  if_pos (wellAnswered_succeeded h none ⟨[], none⟩).observed

section
variable {t : Table} {user goalId : String} {context : Context}

theorem apiResult_getGoal_absent (h : t.find? ⟨user, goalId⟩ = none) :
    apiResult (invoke (invocation user (.get goalId) context none) t).1 = some (some (.str "")) := by
  rw [invocation, invoke_getGoal]
  simp only [h, Option.map_none]
  exact apiResult_succeeded rfl

theorem apiResult_getGoal_present {a : Attributes} (h : t.find? ⟨user, goalId⟩ = some a) :
    apiResult (invoke (invocation user (.get goalId) context none) t).1 =
      some (some (itemJson ⟨user, goalId⟩ a)) := by
  have hdata : responseData (stringifyBody (some (itemJson ⟨user, goalId⟩ a))) =
      some (itemJson ⟨user, goalId⟩ a) := by
    rw [stringifyBody, responseData, Json.parse_stringify]
    rfl
  rw [invocation, invoke_getGoal]
  simp only [h, Option.map_some]
  exact (apiResult_succeeded rfl).trans (congrArg some hdata)

theorem prop_itemJson (k : Key) {a : Attributes} {name : String} (hu : name ≠ "userId") (hg : name ≠ "goalId") :
    prop name (some (itemJson k a)) = .ok (a.find? name) := by
  rw [← member_itemJson (k := k) hu hg]
  rfl

theorem textualData_getGoal (ht : FilledTable t) {outcome : Option AwsError} {value : JsVal}
    (h : apiResult (invoke (invocation user (.get goalId) context outcome) t).1 = some value) : TextualData value := by
  cases outcome with
  | some e =>
    rw [invocation, invoke_getGoal] at h
    exact nomatch (apiResult_failed e).symm.trans h
  | none =>
    intro title content htitle hcontent
    cases hitem : t.find? ⟨user, goalId⟩ with
    | none =>
      cases h.symm.trans (apiResult_getGoal_absent hitem)
      cases htitle
      cases hcontent
      exact ⟨.inl rfl, .inl rfl⟩
    | some a =>
      cases h.symm.trans (apiResult_getGoal_present hitem)
      rw [prop_itemJson _ (by decide) (by decide)] at htitle hcontent
      cases htitle
      cases hcontent
      obtain ⟨h1, h2⟩ := ht _ _ hitem
      exact ⟨h1.textual, h2.textual⟩

end

/-! ### The invariant -/

structure CallInv (call : ApiCall) : Prop where
  request : FilledRequest call.request
  data : ∀ goalId value, call.request = .get goalId → call.result = some (some value) → TextualData value

structure TabInv (tab : Tab) : Prop where
  title : Textual tab.state.goal.title
  content : Textual tab.state.goal.content

structure Inv (w : World) : Prop where
  table : FilledTable w.table
  tabs : ∀ tab ∈ w.tabs, TabInv tab
  calls : ∀ call ∈ w.calls, CallInv call

theorem inv_init : Inv .init := by
  refine ⟨fun k a h => ?_, fun tab h => ?_, fun call h => ?_⟩
  · simp [World.init] at h
  · simp [World.init] at h
  · simp [World.init] at h

theorem forall_mem_send {P : ApiCall → Prop} {calls : List ApiCall} (h : ∀ call ∈ calls, P call) (tab : Nat)
    (user : String) {request : Option ApiRequest} (hr : ∀ r ∈ request, P ⟨tab, user, r, false, none, false⟩) :
    ∀ call ∈ send calls tab user request, P call := by
  cases request with
  | none => exact h
  | some r =>
    intro call hcall
    rcases List.mem_append.1 hcall with hcall | hcall
    · exact h call hcall
    · obtain rfl := List.mem_singleton.1 hcall
      exact hr r rfl

theorem callInv_send {calls : List ApiCall} (h : ∀ call ∈ calls, CallInv call) (tab : Nat) (user : String)
    {request : Option ApiRequest} (hr : ∀ r ∈ request, FilledRequest r) :
    ∀ call ∈ send calls tab user request, CallInv call :=
  forall_mem_send h tab user fun r hmem => ⟨hr r hmem, fun _ _ _ hres => by cases hres⟩

theorem forall_mem_set {α : Type} {P : α → Prop} {l : List α} (h : ∀ a ∈ l, P a) (i : Nat) {b : α} (hb : P b) :
    ∀ a ∈ l.set i b, P a := by
  intro a ha
  rcases List.mem_or_eq_of_mem_set ha with ha | rfl
  exacts [h a ha, hb]

theorem tabInv_handle {tab : Tab} (h : TabInv tab) (input : Input) :
    TabInv (tab.setState (AddEditGoal.handle tab.props tab.state input).1) := by
  cases input with
  | change field value =>
    cases field with
    | title => exact ⟨.inr ⟨value, rfl⟩, h.content⟩
    | content => exact ⟨h.title, .inr ⟨value, rfl⟩⟩
  | submit => exact ⟨h.title, h.content⟩
  | cancel => exact ⟨h.title, h.content⟩
  | openDelete => exact ⟨h.title, h.content⟩
  | closeDelete => exact ⟨h.title, h.content⟩
  | confirmDelete => exact ⟨h.title, h.content⟩

theorem filledRequest_handle {tab : Tab} (h : TabInv tab) {input : Input} (ha : tab.accepts input = true) :
    ∀ r ∈ (AddEditGoal.handle tab.props tab.state input).2, FilledRequest r := by
  intro r hr
  cases input with
  | submit =>
    have hbody := filledBody_of_accepts h.title h.content ha
    obtain rfl := Option.some.inj hr
    rw [AddEditGoal.handleSubmit]
    cases tab.state.isExistingGoal
    exacts [hbody, hbody]
  | confirmDelete =>
    obtain rfl := Option.some.inj hr
    trivial
  | _ => cases hr

theorem tabInv_onResult {tab : Tab} (h : TabInv tab) {request : ApiRequest} {result : Option JsVal}
    (hdata : ∀ goalId value, request = .get goalId → result = some value → TextualData value) :
    TabInv (tab.onResult request result) := by
  cases result with
  | none => exact h
  | some value =>
    rw [Tab.onResult]
    cases hs : AddEditGoal.onResponse tab.props request value tab.state with
    | error e => exact h
    | ok state =>
      have hstate : Textual state.goal.title ∧ Textual state.goal.content := by
        cases request with
        | get goalId =>
          obtain ⟨title, htitle, hs⟩ := bind_eq_ok.1 hs
          obtain ⟨content, hcontent, hs⟩ := bind_eq_ok.1 hs
          cases hs
          exact hdata goalId value rfl rfl title content htitle hcontent
        | put goalId body => cases hs; exact ⟨h.title, h.content⟩
        | post body => cases hs; exact ⟨h.title, h.content⟩
        | del goalId => cases hs; exact ⟨h.title, h.content⟩
      simp only
      split_ifs
      exacts [⟨hstate.1, hstate.2⟩, h]

theorem componentDidMount_initialState (props : Props) :
    (AddEditGoal.componentDidMount props AddEditGoal.initialState).1.goal = AddEditGoal.initialState.goal ∧
      ∀ r ∈ (AddEditGoal.componentDidMount props AddEditGoal.initialState).2, FilledRequest r := by
  cases props with
  | none => exact ⟨rfl, nofun⟩
  | some id =>
    rw [AddEditGoal.componentDidMount]
    split_ifs
    · exact ⟨rfl, nofun⟩
    · exact ⟨rfl, fun r hr => Option.some.inj hr ▸ trivial⟩

theorem Inv.mount {w : World} (h : Inv w) (user : String) (props : Props) : Inv (w.step (.mount user props)) := by
  obtain ⟨hgoal, hrequest⟩ := componentDidMount_initialState props
  refine ⟨h.table, fun tab htab => ?_, callInv_send h.calls _ user hrequest⟩
  rcases List.mem_append.1 htab with htab | htab
  · exact h.tabs tab htab
  · obtain rfl := List.mem_singleton.1 htab
    exact ⟨(congrArg (Textual ∘ AddEditGoal.Goal.title) hgoal).mpr (.inr ⟨"", rfl⟩),
      (congrArg (Textual ∘ AddEditGoal.Goal.content) hgoal).mpr (.inr ⟨"", rfl⟩)⟩

theorem Inv.does {w w' : World} {a : Action} (h : Inv w) (hd : Does w a w') : Inv w' := by
  cases hd with
  | mount user props => exact h.mount user props
  | @input i tab input htab ha =>
    have hi := h.tabs tab (List.mem_of_getElem? htab)
    exact ⟨h.table, forall_mem_set h.tabs i (tabInv_handle hi input),
      callInv_send h.calls i tab.user (filledRequest_handle hi ha)⟩
  | @route _ i tab tab' htab _ hstate =>
    have hi := h.tabs tab (List.mem_of_getElem? htab)
    exact ⟨h.table, forall_mem_set h.tabs i ⟨hstate ▸ hi.title, hstate ▸ hi.content⟩, h.calls⟩
  | @serve c call context outcome hcall _ =>
    have hc := h.calls call (List.mem_of_getElem? hcall)
    refine ⟨invoke_filled hc.request h.table _ _ _, h.tabs, forall_mem_set h.calls c ⟨hc.request, ?_⟩⟩
    intro goalId value hget hres
    rcases Option.or_eq_some_iff.1 hres with hres | ⟨-, hres⟩
    · exact hc.data goalId value hget hres
    · rw [hget] at hres
      exact textualData_getGoal h.table (Option.some.inj hres)
  | @lose c call hcall =>
    have hc := h.calls call (List.mem_of_getElem? hcall)
    exact ⟨h.table, h.tabs, forall_mem_set h.calls c ⟨hc.request, fun _ _ _ hres => by cases hres⟩⟩
  | @arrive c call hcall result hres =>
    have hc := h.calls call (List.mem_of_getElem? hcall)
    refine ⟨h.table, ?_, forall_mem_set h.calls c ⟨hc.request, hc.data⟩⟩
    simp only
    split
    next tab htab =>
      have hi := h.tabs tab (List.mem_of_getElem? htab)
      exact forall_mem_set h.tabs _ (tabInv_onResult hi fun goalId value hget hval =>
        hc.data goalId value hget (hval ▸ hres))
    next => exact h.tabs
  | nothing => exact h

theorem inv_run (actions : List Action) : Inv (World.run actions .init) :=
  List.foldlRecOn actions _ inv_init fun w h a _ => h.does (does_step w a)

theorem listed_goals {t : Table} (ht : FilledTable t) (user : String) :
    ∃ goals : List (List (String × Json)), (queryOutput t user).items = goals.map Json.obj ∧
      ∀ ms ∈ goals, ∃ s, Json.lookup "content" ms = some (.str s) := by
  refine ⟨(takePage itemSize pageLimit (userPartition t user).entries).map fun e =>
    ("userId", .str e.1.userId) :: ("goalId", .str e.1.goalId) :: e.2.entries, ?_, ?_⟩
  · rw [List.map_map]
    rfl
  · intro ms hms
    obtain ⟨⟨k, a⟩, he, rfl⟩ := List.mem_map.1 hms
    obtain ⟨-, hk⟩ := mem_partition_iff.1 ((isPrefix_takePage _ _ _).subset he)
    obtain ⟨s, -, hs⟩ := (ht k a hk).2
    exact ⟨s, (member_itemJson (k := k) (by decide) (by decide)).trans hs⟩

/-- In every reachable state every stored goal has a non-empty title and content, and the list of goals
that ListGoals answers to any user is rendered. -/
theorem goals_list_renders (actions : List Action) :
    FilledTable (World.run actions .init).table ∧ ∀ event context, ∃ goals rows,
      apiResult (invoke ⟨.listGoals, event, context, none⟩ (World.run actions .init).table).1 = some goals ∧
        Home.renderGoalsList goals = .ok rows := by
  have hfilled := (inv_run actions).table
  generalize (World.run actions .init).table = t at hfilled ⊢
  refine ⟨hfilled, fun event context => ?_⟩
  obtain ⟨goals, hgoals, hcontent⟩ := listed_goals hfilled event.identity
  obtain ⟨rows, hrows⟩ := Home.renderGoalsList_of_strings hcontent
  refine ⟨_, rows, ?_, hrows⟩
  rw [invoke_listGoals]
  refine (apiResult_succeeded rfl).trans (congrArg some ?_)
  rw [responseData, Json.parse_stringify, hgoals]
  rfl

end Client

end FullStack
